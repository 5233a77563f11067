import OperationScan.Number.Literal

/-!
# Numeric host addresses

* `HostAddress.isShort`: four decimal numbers with dots between them.
* `HostAddress.isLong`: eight groups of hexadecimal digits with colons between them. Two colons
  in a row stand once for groups that are zero, and the last two groups may be written as a short
  address.
-/

namespace OperationScan.HostAddress

/-- A number below 256 without zeros in front. -/
def isByte (t : Text) : Bool :=
  !t.isEmpty && t.length ≤ 3 && t.all Char.isDigit && (t == ['0'] || t.head? != some '0') &&
    (Number.valueOf? 10 t).getD 256 ≤ 255

/-- An address of four numbers. -/
def isShort (t : Text) : Bool :=
  let numbers := Text.splitOn '.' t
  numbers.length == 4 && numbers.all isByte

/-- A group of an address of eight groups. -/
def isGroup (t : Text) : Bool :=
  !t.isEmpty && t.length ≤ 4 && t.all fun c => (Number.digitValue? c).getD 16 < 16

/-- Groups in which a short address at the end counts as two; nothing if it is none. -/
def expandLast? (groups : List Text) : Option (List Text) :=
  let last := groups.getLast?.getD []
  if last.any (· == '.') then
    if isShort last then some (groups.dropLast ++ [['0'], ['0']]) else none
  else some groups

/-- Groups on one side of two colons; those colons may also stand at the end of the address. -/
def side (groups : List Text) : List Text := if groups == [[]] then [] else groups

/-- Groups are complete: eight of them, or fewer around two colons. -/
def areComplete (groups : List Text) : Bool :=
  let gaps := (groups.drop 1).dropLast.zipIdx.filterMap fun (g, i) =>
    if g.isEmpty then some (i + 1) else none
  match gaps with
  | [] => groups.length == 8 && groups.all isGroup
  | [gap] =>
    let known := side (groups.take gap) ++ side (groups.drop (gap + 1))
    known.length ≤ 7 && known.all isGroup
  | _ => false

/-- An address of eight groups, perhaps with the name of a zone behind a percent sign. -/
def isLong (t : Text) : Bool :=
  let zones := (Text.splitOn '%' t).drop 1
  let groups := Text.splitOn ':' (t.takeWhile (· != '%'))
  (zones.isEmpty || (zones.length == 1 && zones != [[]])) && 3 ≤ groups.length &&
    (match expandLast? groups with
    | some groups => groups.length ≤ 9 && areComplete groups
    | none => false)

end OperationScan.HostAddress
