import PointsTo.Program.Hierarchy

/-!
# Lookup of members

A member is looked up along the chain of superclasses and then among the interfaces. Interfaces are
searched breadth first, starting with those of the class, then those of its superclass, and so on;
each interface is looked at once.
-/

namespace PointsTo.Program

/-- Breadth-first order of the interfaces from a queue: each interface once, at its first place. -/
def interfaceOrderFrom (p : Program) :
    (fuel : Nat) → (seen : List ClassId) → (queue : List ClassId) → List ClassId
  | 0, _, _ => []
  | _, _, [] => []
  | fuel + 1, seen, i :: queue =>
    if i ∈ seen then p.interfaceOrderFrom fuel seen queue
    else i :: p.interfaceOrderFrom fuel (i :: seen) (queue ++ p.interfaces i)

/-- Interfaces among which a member of the class is looked up, in breadth-first order. -/
def interfaceOrder (p : Program) (c : ClassId) : List ClassId :=
  -- The interfaces of the class itself come before those of its superclass.
  let queue := (p.superclassChain c).flatMap p.interfaces
  p.interfaceOrderFrom (queue.length + p.searchBound) [] queue

/-- The first acceptable method with a subsignature: along the chain of superclasses, then among the
interfaces. -/
def lookup? (p : Program) (accept : Method → Bool) (c : ClassId) (s : Subsignature) :
    Option MethodId :=
  let find d := (p.declared? d s).filter fun m => accept (p.methodAt m)
  (p.superclassChain c).findSome? find <|> (p.interfaceOrder c).findSome? find

/-- The method can be the target of a dispatched call. -/
def isDispatchable (m : Method) : Bool := !m.isAbstract && !m.isStatic

/-- The method that a call with the subsignature reaches on an object of the class. -/
def dispatch? (p : Program) (c : ClassId) (s : Subsignature) : Option MethodId :=
  p.lookup? isDispatchable c s

/-- The method that a reference names: the class first, then its superclasses, then the
interfaces. -/
def resolveMethod? (p : Program) (r : MethodRef) : Option MethodId := do
  let c ← p.findClass? r.className
  p.lookup? (fun _ => true) c r.subsignature

/-- The class whose methods an object of the type has. Arrays have the methods of the root class. -/
def dispatchClass? (p : Program) : Ty → Option ClassId
  | .scalar (.object name) => p.findClass? name
  | .array _ _ => p.findClass? rootClassName
  | _ => none

/-- The method of a static call. -/
def staticTarget? (p : Program) (r : MethodRef) : Option MethodId :=
  (p.resolveMethod? r).filter fun m => (p.methodAt m).isStatic && !(p.methodAt m).isAbstract

/-- The method of a call that is dispatched on the class that it names. -/
def specialTarget? (p : Program) (r : MethodRef) : Option MethodId := do
  let c ← p.findClass? r.className
  p.dispatch? c r.subsignature

/-- The method that a call reaches when its receiver is an object of the given type; the type is not
looked at for static and special calls. -/
def resolveCallee? (p : Program) (receiver : Option Ty) (call : Invoke) : Option MethodId :=
  match call.binding with
  | .static => p.staticTarget? call.target
  | .special _ => p.specialTarget? call.target
  | .virtual _ | .interface _ => do
    let t ← receiver
    let c ← p.dispatchClass? t
    p.dispatch? c call.target.subsignature

/-- A class that has instances of its own. -/
def isInstantiable (p : Program) (c : ClassId) : Bool :=
  !(p.classAt c).isInterface && !(p.classAt c).isAbstract

def methodSet (p : Program) (ms : List MethodId) : List MethodId :=
  p.methodIds.filter (· ∈ ms)

/-- Every method that a call may reach, whatever object its receiver is. -/
def resolveAll (p : Program) (call : Invoke) : List MethodId :=
  match call.binding with
  | .static | .special _ => (p.resolveCallee? none call).toList
  | .virtual _ | .interface _ =>
    match p.findClass? call.target.className with
    | none => []
    | some c =>
      p.methodSet <| ((p.allSubtypes c).filter p.isInstantiable).filterMap fun d =>
        p.dispatch? d call.target.subsignature

/-- The field that a reference names: along the chain of superclasses, then among all interfaces above
the class, in the order of identifiers. -/
def resolveField? (p : Program) (r : FieldRef) : Option FieldId := do
  let c ← p.findClass? r.className
  let candidates := p.superclassChain c ++
    -- All ancestors count here, in whatever way they are above the class.
    (p.allParents c).filter fun d => (p.classAt d).isInterface
  candidates.findSome? fun d => p.declaredField? d r.name

end PointsTo.Program
