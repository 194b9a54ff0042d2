import InnerLoop.SortedMap
import InnerLoop.Text.Blank
import InnerLoop.Text.Split

/-!
# Selectors

Which objects a list or a watch is about: the one of a name, or all whose labels meet some terms.
Terms stand between commas; `key=value` asks for a label of that value, `key` for any label of that
key, and an empty term for nothing.
-/

namespace InnerLoop

/-- Which objects are meant. -/
inductive Selector where
  /-- The object of this name. -/
  | name (name : String)
  /-- The objects whose labels meet all terms. -/
  | labels (terms : String)
  deriving DecidableEq, Inhabited, Repr

namespace Selector

/-- Whether labels meet one term, which has no blanks at its ends and is not empty. -/
def meetsTerm (labels : TextMap) (term : List Char) : Bool :=
  match Text.splitFirst '=' term with
  | some (key, value) =>
    labels.find? (String.ofList (Text.trim key)) == some (String.ofList (Text.trim value))
  | none => labels.contains (String.ofList term)

/-- Whether an object of this name and these labels is meant. -/
def accepts : Selector → String → TextMap → Bool
  | .name n, actual, _ => n == actual
  | .labels terms, _, marks =>
    (((Text.splitAll ',' terms.toList).map Text.trim).filter fun t => !t.isEmpty).all
      (meetsTerm marks)

/-- The selector as it is written. -/
def render : Selector → String
  | .name n => "metadata.name=" ++ n
  | .labels terms => terms

end Selector

end InnerLoop
