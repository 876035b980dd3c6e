import Wiretap.Json.Token
/-!
# JSON as a tree

The tokens of a text grow into a tree.  The tree keeps all that was written and in the order in
which it was written: fields that come twice, numbers as they are spelled, texts without content.

Where the text stops being JSON the tree has a leaf `broken`, and so has every container that was
still open there, behind what it had.  So whoever walks a tree in the order of the text meets the
first fault where the text has it; and a tree without `broken` is the tree of a well-formed text.

`Json.tokens` writes a tree down again.
-/

namespace Wiretap

/-- A tree of JSON. -/
inductive Json where
  | null
  | bool (value : Bool)
  | number (literal : String)
  | text (content : Option String)
  | array (items : List Json)
  /-- The fields in the order of the text; a name without content is none. -/
  | object (fields : List (Option String × Json))
  /-- The place where the text stops being JSON. -/
  | broken
  deriving Repr, Inhabited

namespace Json

/-- A container that is still open: what it holds so far, last first. -/
inductive Frame where
  | array (items : List Json)
  /-- With the name of the field whose value comes next. -/
  | object (fields : List (Option String × Json)) (name : Option String)
  deriving Repr, Inhabited

namespace Frame

/-- The container with one more value. -/
def give (value : Json) : Frame → Frame
  | array items => array (value :: items)
  | object fields name => object ((name, value) :: fields) none

/-- The container as it is when it closes. -/
def close : Frame → Json
  | array items => .array items.reverse
  | object fields _ => .object fields.reverse

end Frame

/-- What may come next. -/
inductive Expect where
  /-- A value. -/
  | value
  /-- A value, or the end of an array without items. -/
  | firstItem
  /-- A name, or the end of an object without fields. -/
  | firstName
  /-- A name. -/
  | name
  /-- The colon behind a name. -/
  | colon
  /-- What stands behind a value: a comma or the end of the container. -/
  | more
  deriving DecidableEq, Repr, Inhabited

/-- The tree of a text that breaks off inside the given containers, the innermost first. -/
def abandonFrom (inner : Json) : List Frame → Json
  | [] => inner
  | f :: outer => abandonFrom ((f.give inner).give broken).close outer

/-- The tree of a text that breaks off where a value, a name or a sign should be. -/
def abandon (frames : List Frame) : Json := abandonFrom broken frames

/-- What one more token makes of a tree. -/
inductive Growth where
  /-- The tree grows on inside these containers. -/
  | growing (frames : List Frame) (expect : Expect)
  /-- The tree is complete. -/
  | grown (tree : Json)
  /-- The token must not stand there. -/
  | refused
  deriving Repr, Inhabited

/-- A value is complete. -/
def settleValue (value : Json) : List Frame → Growth
  | [] => .grown value
  | f :: outer => .growing (f.give value :: outer) .more

/-- A container is complete. -/
def closeFrame : List Frame → Growth
  | [] => .refused
  | f :: outer => settleValue f.close outer

/-- A token where a value may stand. -/
def startValue (frames : List Frame) : Token → Growth
  | .null => settleValue null frames
  | .bool b => settleValue (bool b) frames
  | .number literal => settleValue (number literal) frames
  | .text content => settleValue (text content) frames
  | .leftBracket => .growing (.array [] :: frames) .firstItem
  | .leftBrace => .growing (.object [] none :: frames) .firstName
  | _ => .refused

/-- A token where the name of a field may stand. -/
def startField (frames : List Frame) : Token → Growth
  | .text content =>
    match frames with
    | .object fields _ :: outer => .growing (.object fields content :: outer) .colon
    | _ => .refused
  | _ => .refused

/-- One token. -/
def growStep (frames : List Frame) (expect : Expect) (token : Token) : Growth :=
  match expect with
  | .value => startValue frames token
  | .firstItem => if token = .rightBracket then closeFrame frames else startValue frames token
  | .name => startField frames token
  | .firstName => if token = .rightBrace then closeFrame frames else startField frames token
  | .colon => if token = .colon then .growing frames .value else .refused
  | .more =>
    match frames, token with
    | .array _ :: _, .comma => .growing frames .value
    | .object _ _ :: _, .comma => .growing frames .name
    | .array _ :: _, .rightBracket => closeFrame frames
    | .object _ _ :: _, .rightBrace => closeFrame frames
    | _, _ => .refused

/-- The tree that tokens grow into inside the given containers, and the tokens behind it. -/
def growFrom (frames : List Frame) (expect : Expect) : List Token → Json × List Token
  | [] => (abandon frames, [])
  | token :: rest =>
    match growStep frames expect token with
    | .growing frames expect => growFrom frames expect rest
    | .grown tree => (tree, rest)
    | .refused => (abandon frames, [])

/-- What was read of a source: a tree, and whether nothing stands behind it. -/
structure Reading where
  tree : Json
  alone : Bool
  deriving Repr, Inhabited

/-- Reads a source. -/
def read (source : Source) : Reading :=
  let (tree, rest) := growFrom [] .value (lex source)
  ⟨tree, rest.isEmpty⟩

/-- The whole number that a literal spells in at most sixty-four bits, signed or not.  A minus
sign before zero, a fraction and an exponent make no whole number. -/
def wholeNumber? (literal : String) : Option Int :=
  let value? : Option Int :=
    match literal.toList with
    | '-' :: digits => (digitsOf? digits).bind fun n => if n = 0 then none else some (-(n : Int))
    | digits => (digitsOf? digits).map fun n => (n : Int)
  value?.filter fun n => Int64.minValue.toInt ≤ n ∧ n < UInt64.size
where
  /-- The value of one digit or more. -/
  digitsOf? (digits : List Char) : Option Nat :=
    if digits.isEmpty ∨ !digits.all Char.isDigit then none
    else some (digits.foldl (fun n c => 10 * n + (c.toNat - '0'.toNat)) 0)

mutual

/-- The tokens of a tree. -/
def tokens : Json → List Token
  | null => [.null]
  | bool b => [.bool b]
  | number literal => [.number literal]
  | text content => [.text content]
  | array items => .leftBracket :: itemTokens items ++ [.rightBracket]
  | object fields => .leftBrace :: fieldTokens fields ++ [.rightBrace]
  | broken => [.stray]

/-- The tokens of items, with commas between them. -/
def itemTokens : List Json → List Token
  | [] => []
  | [item] => item.tokens
  | item :: rest => item.tokens ++ .comma :: itemTokens rest

/-- The tokens of fields, with commas between them. -/
def fieldTokens : List (Option String × Json) → List Token
  | [] => []
  | [(name, value)] => .text name :: .colon :: value.tokens
  | (name, value) :: rest => .text name :: .colon :: value.tokens ++ .comma :: fieldTokens rest

end

end Json

end Wiretap
