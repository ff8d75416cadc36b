/-!
# Search in a graph

The members of a finite universe that paths lead to. A search keeps the members that were not seen yet,
so each is seen at most once; it needs no more steps than there are roots and edges from the members.
-/

namespace PointsTo

/-- Members of `unseen` that a path leads to from `todo`: a member joins the result the first time it is
met, and its successors are put in front of the work that is left. At most `fuel` steps are made. -/
def reach {α : Type} [DecidableEq α] (next : α → List α) :
    (fuel : Nat) → (unseen : List α) → (todo : List α) → List α
  | 0, _, _ => []
  | _, _, [] => []
  | fuel + 1, unseen, a :: todo =>
    if a ∈ unseen then a :: reach next fuel (unseen.erase a) (next a ++ todo)
    else reach next fuel unseen todo

end PointsTo
