/-!
# The order of texts

Texts are in the order of their characters, and these in the order of their code points.  A text
stands before every one that begins with it.

## Main Definitions

* `textOrder`: the order of texts
* `optionOrder`: the order of what may be missing
-/

namespace Recurrence.Text

/-- The order of lists of characters. -/
def charsOrder : List Char → List Char → Ordering
  | [], [] => .eq
  | [], _ :: _ => .lt
  | _ :: _, [] => .gt
  | c :: s, d :: t => (compareOfLessAndEq c.toNat d.toNat).then (charsOrder s t)

/-- The order of texts. -/
def textOrder (a b : String) : Ordering := charsOrder a.toList b.toList

/-- The order of what may be missing, which comes first where it is. -/
def optionOrder {α : Type} (order : α → α → Ordering) : Option α → Option α → Ordering
  | none, none => .eq
  | none, some _ => .lt
  | some _, none => .gt
  | some a, some b => order a b

/-- The order of what may be missing by that alone. -/
def presenceOrder {α : Type} (a b : Option α) : Ordering := optionOrder (fun _ _ => .eq) a b

end Recurrence.Text
