import Wiretap.Json.Source
import Wiretap.Text.Hex
/-!
# The signs of JSON

Reading JSON begins with cutting its source into **tokens**.  The cutting is a machine that takes
one unit at a time (`Mode.step`): it stands between tokens, or inside a word, a number or a text.
What cannot be cut is the token `stray`, after which nothing more is read; so a reader that
follows the tokens meets the first fault of the text where the text has it.

A text token has no content when its escapes or bytes spell none: a surrogate without its partner,
or bytes that are no UTF-8.  That is a fault only where the text is used.

Each token has a spelling (`Token.spell`).
-/

namespace Wiretap.Json

/-- A sign of JSON. -/
inductive Token where
  | leftBrace
  | rightBrace
  | leftBracket
  | rightBracket
  | comma
  | colon
  | null
  | bool (value : Bool)
  /-- A number as it is written. -/
  | number (literal : String)
  /-- A text, with its content if it has one. -/
  | text (content : Option String)
  /-- Something that JSON does not have. -/
  | stray
  deriving DecidableEq, Repr, Inhabited

/-- The four blanks of JSON. -/
def isBlank (c : Char) : Bool := c == ' ' || c == '\t' || c == '\n' || c == '\r'

/-- What was read of a number literal, by what may follow it. -/
inductive NumberPart where
  | minus
  | zero
  | whole
  | point
  | fraction
  | exponent
  | exponentSign
  | exponentDigits
  deriving DecidableEq, Repr, Inhabited

namespace NumberPart

/-- The part that a literal comes to with one more character, where it can take it. -/
def next? (part : NumberPart) (c : Char) : Option NumberPart :=
  match part with
  | minus => if c = '0' then some zero else if c.isDigit then some whole else none
  | zero =>
    if c = '.' then some point else if c = 'e' ∨ c = 'E' then some exponent else none
  | whole =>
    if c.isDigit then some whole
    else if c = '.' then some point
    else if c = 'e' ∨ c = 'E' then some exponent
    else none
  | point => if c.isDigit then some fraction else none
  | fraction =>
    if c.isDigit then some fraction else if c = 'e' ∨ c = 'E' then some exponent else none
  | exponent =>
    if c = '+' ∨ c = '-' then some exponentSign
    else if c.isDigit then some exponentDigits
    else none
  | exponentSign => if c.isDigit then some exponentDigits else none
  | exponentDigits => if c.isDigit then some exponentDigits else none

/-- Whether a literal may end there. -/
def mayEnd : NumberPart → Bool
  | zero | whole | fraction | exponentDigits => true
  | minus | point | exponent | exponentSign => false

end NumberPart

/-- What was read of a text. -/
structure Content where
  /-- The characters, last first. -/
  reversed : List Char := []
  /-- Whether everything so far spelled a character. -/
  sound : Bool := true
  /-- A leading surrogate that still wants its partner. -/
  lead : Option Nat := none
  deriving DecidableEq, Repr, Inhabited

namespace Content

/-- The content with one more character. -/
def push (t : Content) (c : Char) : Content where
  reversed := c :: t.reversed
  sound := t.sound && t.lead.isNone

/-- The content with something behind it that is no character. -/
def spoil (t : Content) : Content := { t with sound := false, lead := none }

/-- The content with one more unit of UTF-16 behind it, of which two may make one character. -/
def pushUnit (t : Content) (n : Nat) : Content :=
  match t.lead with
  | some l =>
    if 0xDC00 ≤ n ∧ n ≤ 0xDFFF then
      { t with lead := none }.push (Char.ofNat (0x10000 + (l - 0xD800) * 0x400 + (n - 0xDC00)))
    else t.spoil
  | none =>
    if 0xD800 ≤ n ∧ n ≤ 0xDBFF then { t with lead := some n }
    else if 0xDC00 ≤ n ∧ n ≤ 0xDFFF then t.spoil
    else t.push (Char.ofNat n)

/-- The text that was read, if it is one. -/
def text? (t : Content) : Option String :=
  if t.sound && t.lead.isNone then some (String.ofList t.reversed.reverse) else none

end Content

/-- Where the machine stands. -/
inductive Mode where
  /-- Between two tokens. -/
  | between
  /-- Inside a word of which `rest` is still to come. -/
  | word (rest : List Char) (token : Token)
  /-- Inside a number, its characters last first. -/
  | number (part : NumberPart) (reversed : List Char)
  /-- Inside a text. -/
  | text (content : Content)
  /-- Behind a backslash. -/
  | escape (content : Content)
  /-- Inside an escape with `more` digits still to come after those of `value`. -/
  | hex (content : Content) (more : Nat) (value : Nat)
  /-- Behind something stray. -/
  | lost
  deriving DecidableEq, Repr, Inhabited

namespace Mode

/-- A character between two tokens: the token that it is, or the mode that it begins. -/
def start (c : Char) : List Token × Mode :=
  if isBlank c then ([], between)
  else
    match c with
    | '\x7b' => ([.leftBrace], between)
    | '\x7d' => ([.rightBrace], between)
    | '[' => ([.leftBracket], between)
    | ']' => ([.rightBracket], between)
    | ',' => ([.comma], between)
    | ':' => ([.colon], between)
    | '"' => ([], text {})
    | 'n' => ([], word ['u', 'l', 'l'] .null)
    | 't' => ([], word ['r', 'u', 'e'] (.bool true))
    | 'f' => ([], word ['a', 'l', 's', 'e'] (.bool false))
    | '-' => ([], number .minus [c])
    | '0' => ([], number .zero [c])
    | _ => if c.isDigit then ([], number .whole [c]) else ([.stray], lost)

/-- The character that a backslash and `c` stand for. -/
def escaped? : Char → Option Char
  | '"' => some '"'
  | '\\' => some '\\'
  | '/' => some '/'
  | 'b' => some '\x08'
  | 'f' => some '\x0c'
  | 'n' => some '\n'
  | 'r' => some '\r'
  | 't' => some '\t'
  | _ => none

/-- The token of a number read to its end, or a stray one. -/
def numberToken (part : NumberPart) (reversed : List Char) : Token :=
  if part.mayEnd then .number (String.ofList reversed.reverse) else .stray

/-- One unit of the source: the tokens that it completes, and the mode after it. -/
def step : Mode → Option Char → List Token × Mode
  | lost, _ => ([], lost)
  | between, some c => start c
  | between, none => ([.stray], lost)
  | word [] token, _ => ([token], lost)
  | word [e] token, u => if u = some e then ([token], between) else ([.stray], lost)
  | word (e :: rest) token, u => if u = some e then ([], word rest token) else ([.stray], lost)
  | number part reversed, some c =>
    match part.next? c with
    | some part => ([], number part (c :: reversed))
    | none =>
      if part.mayEnd then
        let (tokens, mode) := start c
        (numberToken part reversed :: tokens, mode)
      else ([.stray], lost)
  | number part reversed, none =>
    if part.mayEnd then ([numberToken part reversed, .stray], lost) else ([.stray], lost)
  | text content, none => ([], text content.spoil)
  | text content, some c =>
    if c = '"' then ([.text content.text?], between)
    else if c = '\\' then ([], escape content)
    else if c < ' ' then ([.stray], lost)
    else ([], text (content.push c))
  | escape content, some c =>
    if c = 'u' then ([], hex content 4 0)
    else
      match escaped? c with
      | some e => ([], text (content.push e))
      | none => ([.stray], lost)
  | escape _, none => ([.stray], lost)
  | hex content more value, u =>
    match u.bind Text.hexDigit? with
    | some d =>
      let value := 16 * value + d
      if more ≤ 1 then ([], text (content.pushUnit value)) else ([], hex content (more - 1) value)
    | none => ([.stray], lost)

/-- What is left to say where the source ends. -/
def finish : Mode → List Token
  | between | lost => []
  | number part reversed => [numberToken part reversed]
  | word _ _ | text _ | escape _ | hex _ _ _ => [.stray]

end Mode

/-- The tokens of a source that is read on from a mode. -/
def lexFrom (mode : Mode) : Source → List Token
  | [] => mode.finish
  | u :: rest =>
    let (tokens, mode) := mode.step u
    tokens ++ lexFrom mode rest

/-- The tokens of a source. -/
def lex (source : Source) : List Token := lexFrom .between source

/-- The spelling of a character inside a text. -/
def spellChar (c : Char) : List Char :=
  if c = '"' then ['\\', '"']
  else if c = '\\' then ['\\', '\\']
  else if c = '\x08' then ['\\', 'b']
  else if c = '\x0c' then ['\\', 'f']
  else if c = '\n' then ['\\', 'n']
  else if c = '\r' then ['\\', 'r']
  else if c = '\t' then ['\\', 't']
  else if c < ' ' then ['\\', 'u', '0', '0'] ++ Text.hexByte c.toNat.toUInt8
  else [c]

/-- The spelling of a token.  A text without content is spelled as half a surrogate pair. -/
def Token.spell : Token → List Char
  | leftBrace => ['\x7b']
  | rightBrace => ['\x7d']
  | leftBracket => ['[']
  | rightBracket => [']']
  | comma => [',']
  | colon => [':']
  | null => ['n', 'u', 'l', 'l']
  | bool true => ['t', 'r', 'u', 'e']
  | bool false => ['f', 'a', 'l', 's', 'e']
  | number literal => literal.toList
  | text (some s) => '"' :: s.toList.flatMap spellChar ++ ['"']
  | text none => ['"', '\\', 'u', 'd', '8', '0', '0', '"']
  | stray => ['?']

end Wiretap.Json
