import OperationScan.Digest.Sha1
import OperationScan.Operation.Kind
import OperationScan.Text.Blank
import OperationScan.Text.LetterCase

/-!
# Operation heads and signatures

The head of an operation is all that stands before the opening brace of its body: the keyword,
and optionally a name, an argument list between parentheses that holds no parenthesis, a type
condition, and directives.

* `Head.at?`: the head that begins at a place.
* `Head.describe`: kind, name and arguments of a text; a text without a full head still has the
  kind and the name that it begins with.

The signature of a text is the text with every run of white space collapsed to one blank and
without white space at its ends. It is the only key by which operations are told apart.

* `normalize`: the signature.
* `placeholderName`: the name given to an operation that declares none; it depends on the kind
  and the signature only.
-/

namespace OperationScan

/-- Kind, name and raw argument text of an operation. -/
structure Head where
  kind : Kind
  name : Option Text
  args : Option Text
  deriving Repr, DecidableEq

/-- A head together with the place of the opening brace behind it. -/
structure HeadMatch where
  head : Head
  brace : Place
  deriving Repr, DecidableEq

namespace Place

/-- The place behind white space. -/
def skipBlanks (p : Place) : Place := p.skip Text.isBlank

/-- The name at a place and the place behind it. -/
def name? (p : Place) : Option (Text × Place) :=
  match p.rest with
  | c :: _ =>
    if Text.isNameStart c then
      let name := p.run Text.isNameChar
      some (name, p.drop name.length)
    else none
  | [] => none

/-- Neither an opening nor a closing parenthesis. -/
def isInside (c : Char) : Bool := c != '(' && c != ')'

/-- The text between the parenthesis at a place and the next one, if that closes it. -/
def parenthesized? (p : Place) : Option (Text × Place) :=
  match p.rest with
  | '(' :: rest =>
    let inner := rest.takeWhile isInside
    match (rest.drop inner.length).head? with
    | some ')' => some (inner, p.drop (inner.length + 2))
    | _ => none
  | _ => none

end Place

namespace Head

/-- The arguments of an operation, if they come next. -/
def readArgs (p : Place) : Option Text × Place :=
  match p.skipBlanks.parenthesized? with
  | some (args, q) => (some args, q)
  | none => (none, p)

/-- The place behind a type condition, if one comes next. -/
def skipCondition (p : Place) : Place :=
  match p.skipBlanks.skipLiteral? ['o', 'n'] with
  | some q =>
    let r := q.skipBlanks
    if r.index == q.index then p
    else
      match r.name? with
      | some (_, s) => s
      | none => p
  | none => p

/-- The place behind a directive, if one comes next. -/
def skipDirective? (p : Place) : Option Place :=
  match p.skipBlanks.skipLiteral? ['@'] with
  | some q =>
    match q.name? with
    | some (_, r) =>
      match r.parenthesized? with
      | some (_, s) => some s
      | none => some r
    | none => none
  | none => none

/-- The place behind at most `fuel` directives. -/
def skipDirectives : (fuel : Nat) → Place → Place
  | 0, p => p
  | fuel + 1, p =>
    match skipDirective? p with
    | some q => skipDirectives fuel q
    | none => p

/-- The place behind all directives that come next. -/
def skipAllDirectives (p : Place) : Place :=
  if p.skipBlanks.head? == some '@' then skipDirectives p.rest.length p else p

/-- The arguments and the opening brace, read from behind the name. -/
def afterName? (p : Place) : Option (Option Text × Place) :=
  let (args, q) := readArgs p
  let q := (skipAllDirectives (skipCondition q)).skipBlanks
  match q.rest with
  | '\x7b' :: _ => some (args, q)
  | _ => none

/-- A name without the word `on` at its end, if more than that is left over. -/
def withoutOn? (name : Text) : Option Text :=
  match name.reverse with
  | 'n' :: 'o' :: c :: rest => some (c :: rest).reverse
  | _ => none

/-- The rest of a head with a given name, which ends at a place. -/
def named? (kind : Kind) (name : Text) (p : Place) : Option HeadMatch :=
  (afterName? p).map fun (args, brace) => ⟨⟨kind, some name, args⟩, brace⟩

/-- The rest of a head without a name, read from behind the keyword. -/
def unnamed? (kind : Kind) (p : Place) : Option HeadMatch :=
  (afterName? p).map fun (args, brace) => ⟨⟨kind, none, args⟩, brace⟩

/-- The head whose keyword stands at a place. The longest name comes first; the word `on` at the
end of a name, or the name `on` itself, may instead begin the type condition. -/
def at? (p : Place) : Option HeadMatch :=
  match Kind.at? p with
  | none => none
  | some (kind, q) =>
    let start := q.skipBlanks
    if start.index == q.index then unnamed? kind q
    else
      match start.name? with
      | none => unnamed? kind q
      | some (name, r) =>
        (named? kind name r).or <|
          ((withoutOn? name).bind fun short =>
            named? kind short (start.drop short.length)).or <|
            unnamed? kind q

/-- The kind and the name that a text begins with. The word `on` is no name here. -/
def loose? (t : Text) : Option Head :=
  match Kind.at? (Place.start t).skipBlanks with
  | none => none
  | some (kind, q) =>
    match q.skipBlanks.name? with
    | some (name, _) => some ⟨kind, if name == ['o', 'n'] then none else some name, none⟩
    | none => some ⟨kind, none, none⟩

/-- Kind, name and arguments of a text. -/
def describe (t : Text) : Head :=
  let stripped := Text.trimStart t
  match at? (.start stripped) with
  | some m => m.head
  | none => (loose? stripped).getD ⟨.unknown, none, none⟩

end Head

/-! ## Signatures -/

/-- Puts a character in front of a collapsed text. -/
def consCollapsed (c : Char) (t : Text) : Text :=
  if Text.isBlank c then
    match t with
    | ' ' :: _ => t
    | _ => ' ' :: t
  else c :: t

/-- A text with every run of white space replaced by one blank. -/
def collapse (t : Text) : Text := t.foldr consCollapsed []

/-- The signature of a text. -/
def normalize (t : Text) : Text := Text.trim (collapse t)

/-- The word for a kind in a generated name. -/
def kindLabel (kind : Text) : Text :=
  if kind == Kind.unknown.word then "Operation".toList else Text.capitalize kind

/-- The name of an operation that declares none. -/
def placeholderName (kind : Text) (signature : Text) : Text :=
  "Anonymous".toList ++ kindLabel kind ++ '_' :: (Sha1.hexOfText signature).take 8

end OperationScan
