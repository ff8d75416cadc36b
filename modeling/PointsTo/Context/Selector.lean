import PointsTo.Context.Element

/-!
# Context selectors

A selector chooses the contexts in which methods are analysed and objects are allocated. A bound of
zero is the same as no context at all, and that is how it is read.
-/

namespace PointsTo

/-- A policy of context sensitivity, with the number of tokens that are kept. -/
inductive Selector where
  | insensitive
  /-- The last `k` call sites. -/
  | callSite (k : Nat)
  /-- The last `k` allocation sites of receivers. -/
  | object (k : Nat)
  /-- The last `k` container types of receivers. -/
  | type (k : Nat)
  deriving DecidableEq, Repr, Inhabited

namespace Selector

/-- Context of the callee of a call without a receiver. -/
def calleeContext (sel : Selector) (site : CsCallSite) : Context :=
  match sel with
  | insensitive => []
  | callSite k => site.context.extend (.callSite site.stmt) k
  | object _ => site.context
  | type _ => site.context

/-- Context of the callee of a call on a receiver. -/
def receiverContext (sel : Selector) (site : CsCallSite) (receiver : CsObject) : Context :=
  match sel with
  | insensitive => []
  | callSite k => site.context.extend (.callSite site.stmt) k
  | object k => receiver.context.extend (.object receiver.object) k
  | type k => receiver.context.extend (.type receiver.container) k

/-- Heap context of the objects that a method allocates: one token less than a context of a method. -/
def heapContext (sel : Selector) (m : CsMethod) : Context :=
  match sel with
  | insensitive => []
  | callSite k => m.context.lastK (k - 1)
  | object k => m.context.lastK (k - 1)
  | type k => m.context.lastK (k - 1)

def text : Selector → String
  | insensitive => "ci"
  | callSite k => toString k ++ "-call"
  | object k => toString k ++ "-obj"
  | type k => toString k ++ "-type"

/-- Bounds are below this limit, which is the number of words of 64 bits. -/
def boundLimit : Nat := 18446744073709551616

/-- The number that a list of decimal digits denotes. -/
def decimal (digits : List Char) : Nat :=
  digits.foldl (fun n c => 10 * n + (c.toNat - '0'.toNat)) 0

/-- The kind of policy that the text after the bound names. -/
def family? : List Char → Option (Nat → Selector)
  | ['-', 'c', 'a', 'l', 'l'] => some callSite
  | ['-', 'o', 'b', 'j'] => some object
  | ['-', 't', 'y', 'p', 'e'] => some type
  | _ => none

/-- Reads a policy: `ci`, or a bound and a kind. -/
def parse? (s : String) : Option Selector :=
  if s = "ci" then some insensitive
  else
    let digits := s.toList.takeWhile Char.isDigit
    match family? (s.toList.dropWhile Char.isDigit) with
    | none => none
    | some family =>
      if digits = [] ∨ boundLimit ≤ decimal digits then none
      else if decimal digits = 0 then some insensitive
      else some (family (decimal digits))

end Selector

end PointsTo
