import OperationScan.Files.Path
import OperationScan.Inputs.HostAddress
import OperationScan.Text.Printable

/-!
# Addresses of remote scripts

* `Url.isRemote`: an input is the address of a remote script.
* `Url.path`: the path in an address, or what is wrong with its host.
* `Url.suffix`: the ending of the script at an address.
-/

namespace OperationScan

/-- What is wrong with the host of an address. -/
inductive UrlFault where
  | unbalancedBrackets
  | badFutureAddress
  | shortAddressInBrackets
  | noAddress (host : Text)
  | ambiguousHost (host : Text)
  deriving Repr, DecidableEq

namespace UrlFault

/-- The wording of a fault. -/
def message : UrlFault → Text
  | unbalancedBrackets => "Invalid IPv6 URL".toList
  | badFutureAddress => "IPvFuture address is invalid".toList
  | shortAddressInBrackets => "An IPv4 address cannot be in brackets".toList
  | noAddress host =>
    Text.quoted host ++ " does not appear to be an IPv4 or IPv6 address".toList
  | ambiguousHost host =>
    "netloc '".toList ++ host ++ "' contains invalid characters under NFKC normalization".toList

end UrlFault

namespace Url

/-- An address of a remote script starts with its scheme, in small letters or capitals. -/
def isRemote (t : Text) : Bool :=
  Text.startsFolded "http://".toList t || Text.startsFolded "https://".toList t

/-- The address without control characters and blanks in front and without tabs and line
breaks. -/
def clean (t : Text) : Text :=
  (t.dropWhile fun c => c.toNat ≤ 32).filter fun c => c != '\t' && c != '\n' && c != '\r'

/-- A character of a scheme. -/
def isSchemeChar (c : Char) : Bool :=
  (c.isAlpha || c.isDigit) || c == '+' || c == '-' || c == '.'

/-- What follows the scheme, if there is one. -/
def afterScheme (t : Text) : Text :=
  let scheme := t.takeWhile (· != ':')
  match t.drop scheme.length, scheme with
  | _ :: rest, first :: _ => if first.isAlpha && scheme.all isSchemeChar then rest else t
  | _, _ => t

/-- The host and what follows it. -/
def splitHost (t : Text) : Text × Text :=
  match t with
  | '/' :: '/' :: rest => rest.span fun c => c != '/' && c != '?' && c != '#'
  | _ => ([], t)

/-- Checks the address between the brackets of a host. -/
def checkBracketed (t : Text) : Except UrlFault Unit :=
  match t with
  | 'v' :: rest =>
    let digits := rest.takeWhile fun c => (Number.digitValue? c).getD 16 < 16
    match rest.drop digits.length with
    | '.' :: _ :: _ => if digits.isEmpty then .error .badFutureAddress else .ok ()
    | _ => .error .badFutureAddress
  | _ =>
    if HostAddress.isShort t then .error .shortAddressInBrackets
    else if HostAddress.isLong t then .ok ()
    else .error (.noAddress t)

/-- Checks the brackets of a host. -/
def checkBrackets (host : Text) : Except UrlFault Unit :=
  let left := host.any (· == '[')
  let right := host.any (· == ']')
  if left != right then .error .unbalancedBrackets
  else if left then
    checkBracketed (((host.dropWhile (· != '[')).drop 1).takeWhile (· != ']'))
  else .ok ()

/-- Characters that stand for several, one of which would end a host. -/
def isAmbiguous (c : Char) : Bool :=
  [0x2047, 0x2048, 0x2049, 0x2100, 0x2101, 0x2105, 0x2106, 0x2a74, 0xfe13, 0xfe16, 0xfe55, 0xfe56,
    0xfe5f, 0xfe6b, 0xff03, 0xff0f, 0xff1a, 0xff1f, 0xff20].contains c.toNat

/-- Checks that no character of a host can be taken for its end. -/
def checkHost (host : Text) : Except UrlFault Unit :=
  if host.any isAmbiguous then .error (.ambiguousHost host) else .ok ()

/-- A path without the parameters of its last name. -/
def dropParameters (path : Text) : Text :=
  let last := (path.reverse.takeWhile (· != '/')).reverse
  path.take (path.length - last.length) ++ last.takeWhile (· != ';')

/-- The path in an address. -/
def path (url : Text) : Except UrlFault Text := do
  let (host, rest) := splitHost (afterScheme (clean url))
  checkBrackets host
  checkHost host
  return dropParameters (rest.takeWhile fun c => c != '#' && c != '?')

/-- The ending of the script at an address; what has no ending of a script counts as one with
the usual ending. -/
def suffix (url : Text) : Except UrlFault Text := do
  let suffix := Text.toLower (Path.ofText (← path url)).suffix
  return if (Language.ofSuffix? suffix).isSome then suffix else ".js".toList

end Url

end OperationScan
