import Wiretap.Json.Tree
/-!
# JSON written down

A tree is written token by token.  The **compact** layout puts nothing between them.  The
**pretty** layout puts every item and every field on a line of its own, indented by two blanks for
each container around it, and one blank behind a colon; a container without content stays on one
line.  The two differ in blanks between tokens and in nothing else.
-/

namespace Wiretap.Json

/-- Everything on one line. -/
def compact (tree : Json) : String :=
  String.ofList (tree.tokens.flatMap Token.spell)

/-- The beginning of a line inside `depth` containers. -/
def newLine (depth : Nat) : List Char := '\n' :: List.replicate (2 * depth) ' '

/-- The number of open containers after a token. -/
def depthAfter (depth : Nat) : Token → Nat
  | .leftBrace | .leftBracket => depth + 1
  | .rightBrace | .rightBracket => depth - 1
  | _ => depth

/-- The blanks between two tokens, with `depth` containers open after the first. -/
def gap (depth : Nat) (left right : Token) : List Char :=
  match left, right with
  | .leftBrace, .rightBrace | .leftBracket, .rightBracket => []
  | _, .rightBrace | _, .rightBracket => newLine (depth - 1)
  | .leftBrace, _ | .leftBracket, _ | .comma, _ => newLine depth
  | .colon, _ => [' ']
  | _, _ => []

/-- Tokens in the pretty layout, with `depth` containers open before the first. -/
def layFrom (depth : Nat) : List Token → List Char
  | [] => []
  | [token] => token.spell
  | token :: next :: rest =>
    let depth := depthAfter depth token
    token.spell ++ gap depth token next ++ layFrom depth (next :: rest)

/-- Every item and field on a line of its own. -/
def pretty (tree : Json) : String :=
  String.ofList (layFrom 0 tree.tokens)

end Wiretap.Json
