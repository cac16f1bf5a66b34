import EventFormula.Expression
import EventFormula.Failure
import EventFormula.Platform
import EventFormula.Token

/-! What stands between the parentheses of a call is cut into slots at its outermost commas, and the
slots are matched with the parameters that the designer writes. A slot that is blank counts as an
argument without text. -/

namespace EventFormula.Call

def intoFirst (token : Token) : List (List Token) → List (List Token)
  | [] => [[token]]
  | slot :: slots => (token :: slot) :: slots

/-- The runs of tokens between the commas that no parenthesis holds; `depth` parentheses are open
before the first token. -/
def slots (depth : Nat) : List Token → List (List Token)
  | [] => [[]]
  | token :: tokens =>
    match token.kind with
    | .comma =>
      if depth = 0 then [] :: slots 0 tokens else intoFirst token (slots depth tokens)
    | .leftParen => intoFirst token (slots (depth + 1) tokens)
    | .rightParen => intoFirst token (slots (depth - 1) tokens)
    | _ => intoFirst token (slots depth tokens)

def trim (tokens : List Token) : List Token :=
  ((tokens.dropWhile Token.isWhitespace).reverse.dropWhile Token.isWhitespace).reverse

/-- A slot without any token stands where the last argument before it ends, and `last` is that
place. A sum with `base` that is past the limit of offsets is clamped, as in `Span`. -/
def place (base last : Nat) : List (List Token) → List Expression
  | [] => []
  | slot :: slots =>
    match trim slot with
    | [] =>
      .place "" (base + (slot.head?.elim last fun token => token.span.start))
        :: place base last slots
    | first :: rest =>
      .place (Token.concat (first :: rest)) (base + first.span.start)
        :: place base ((first :: rest).getLastD first).span.stop slots

/-- The arguments written between two parentheses, of which the opening one ends at `start`. -/
def split (base start : Nat) (inner : List Token) : List Expression :=
  if inner.all Token.isWhitespace then [] else place base start (slots 0 inner)

structure Argument where
  expression : Expression
  written : Bool
deriving DecidableEq

/-- One argument for each parameter. Defaults for arguments that are not there stand at `stop`. -/
def fill (function : String) (stop : Nat) :
    List Parameter → List Expression → Except Failure (List Argument)
  | [], _ => .ok []
  | parameter :: parameters, written =>
    if parameter.codeOnly then
      (fill function stop parameters written).map (⟨.place parameter.defaultValue stop, false⟩ :: ·)
    else
      match written with
      | [] =>
        (fill function stop parameters []).map (⟨.place parameter.defaultValue stop, false⟩ :: ·)
      | argument :: rest =>
        if !argument.isEmpty then
          (fill function stop parameters rest).map (⟨argument, true⟩ :: ·)
        else if parameter.optional then
          (fill function stop parameters rest).map
            (⟨.place parameter.defaultValue argument.base, false⟩ :: ·)
        else .error ⟨.missingArgument function, argument.span⟩

/-- The arguments that the head gives come before those that are written. -/
def align (function : String) (callable : Callable) (given written : List Expression)
    (place : Span) : Except Failure (List Argument) :=
  let required := callable.requiredCount given.length
  let max := callable.maxCount given.length
  if written.length < required ∨ max < written.length then
    .error ⟨.wrongArgumentCount function required max written.length, place⟩
  else
    (fill function place.stop (callable.parameters.drop given.length) written).map
      (given.map (⟨·, false⟩) ++ ·)

end EventFormula.Call
