/-!
# The pieces of a command line

A command line is cut into **pieces**: options, each with the value it was given if it takes one,
and words.  Two dashes end the options; everything behind them is a word.  An option is written
with its whole name behind two dashes, and its value stands behind an equals sign or is the next
argument, which must not look like an option itself.  Some options have a letter too, and letters
may share one dash.

The cutting keeps the pieces before the first fault (`Cut`), because some of them, such as a
question for the version, are answered before anybody looks further.
-/

namespace Wiretap.Cli

/-- An option as a command knows it. -/
structure Shape where
  name : String
  letter : Option Char := none
  /-- Which values the option may have, if it takes one. -/
  value : Option (String → Bool) := none
  deriving Inhabited

/-- Whether the option takes a value. -/
def Shape.takesValue (s : Shape) : Bool := s.value.isSome

/-- Whether the option may have the given value. -/
def Shape.accepts (s : Shape) (text : String) : Bool := s.value.all (· text)

/-- A piece of a command line. -/
inductive Piece where
  | option (name : String) (value : Option String)
  | word (text : String)
  deriving DecidableEq, Repr, Inhabited

/-- Why a command line cannot be understood. -/
inductive UsageError where
  | unknownOption (text : String)
  | missingValue (name : String)
  | unneededValue (name : String)
  | repeated (name : String)
  | invalidValue (name value : String)
  | missing (name : String)
  | unexpectedWord (text : String)
  deriving DecidableEq, Repr

/-- The words of the error. -/
def UsageError.message : UsageError → String
  | .unknownOption text => s!"unexpected argument '{text}'"
  | .missingValue name => s!"a value is required for '--{name}'"
  | .unneededValue name => s!"no value is expected for '--{name}'"
  | .repeated name => s!"'--{name}' cannot be used multiple times"
  | .invalidValue name value => s!"invalid value '{value}' for '{name}'"
  | .missing name => s!"'{name}' is required"
  | .unexpectedWord text => s!"unexpected argument '{text}'"

/-- What an argument looks like. -/
inductive Look where
  /-- Two dashes and nothing else. -/
  | dashes
  | long (name : String) (value : Option String)
  | short (letters : List Char)
  | word
  deriving DecidableEq, Repr

/-- What an argument looks like.  One dash alone is a word. -/
def look (argument : String) : Look :=
  match argument.toList with
  | ['-', '-'] => .dashes
  | '-' :: '-' :: r =>
    .long (String.ofList (r.takeWhile (· ≠ '=')))
      (match r.dropWhile (· ≠ '=') with
      | _ :: value => some (String.ofList value)
      | [] => none)
  | '-' :: c :: r => .short (c :: r)
  | _ => .word

/-- The pieces up to the first fault, and the fault, or else the arguments that were not cut. -/
structure Cut where
  pieces : List Piece
  ending : Except UsageError (List String)
  deriving Repr

namespace Cut

/-- Nothing but an end. -/
def fault (e : UsageError) : Cut := ⟨[], .error e⟩

/-- The cut with more pieces in front. -/
def after (pieces : List Piece) (c : Cut) : Cut := { c with pieces := pieces ++ c.pieces }

end Cut

/-- The options that letters behind one dash name, up to one that is unknown. -/
def letters (shapes : List Shape) : List Char → List Piece × Option Char
  | [] => ([], none)
  | c :: r =>
    match shapes.find? fun s => s.letter == some c && !s.takesValue with
    | none => ([], some c)
    | some s =>
      let (pieces, unknown) := letters shapes r
      (.option s.name none :: pieces, unknown)

/-- Cuts a command line.  Where `stopping` is set the first word and what follows it is left
uncut. -/
def cut (shapes : List Shape) (stopping : Bool) : List String → Cut
  | [] => ⟨[], .ok []⟩
  | argument :: rest =>
    match look argument with
    | .word =>
      if stopping then ⟨[], .ok (argument :: rest)⟩
      else (cut shapes stopping rest).after [.word argument]
    | .dashes =>
      if stopping then
        match rest with
        | [] => ⟨[], .ok []⟩
        | word :: _ => .fault (.unexpectedWord word)
      else ⟨rest.map .word, .ok []⟩
    | .short cs =>
      match letters shapes cs with
      | (pieces, none) => (cut shapes stopping rest).after pieces
      | (pieces, some c) => ⟨pieces, .error (.unknownOption s!"-{c}")⟩
    | .long name value =>
      match shapes.find? (·.name == name) with
      | none => .fault (.unknownOption s!"--{name}")
      | some s =>
        match s.takesValue, value, rest with
        | false, none, rest => (cut shapes stopping rest).after [.option name none]
        | false, some _, _ => .fault (.unneededValue name)
        | true, some value, rest => (cut shapes stopping rest).after [.option name (some value)]
        | true, none, [] => .fault (.missingValue name)
        | true, none, value :: rest =>
          if look value = .word then
            (cut shapes stopping rest).after [.option name (some value)]
          else .fault (.missingValue name)

end Wiretap.Cli
