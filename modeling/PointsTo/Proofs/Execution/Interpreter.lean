import PointsTo.Proofs.Program.WellFormed

/-! # Execution of programs

An interpreter of loaded programs. A configuration has the objects that were allocated, the frames of
the methods that were called, and what every location holds. Executions are as free as they can be: a
step picks any frame and any statement of its method, frames stay after they have returned, and an
access to an array picks any index. A statement that needs an object where there is none, or a method
that is not found, has no effect.
-/

namespace PointsTo

/-- An object that was allocated: by which statement, and with which type. -/
structure Instance where
  site : StmtId
  type : Ty
  deriving DecidableEq, Repr

instance : Inhabited Instance := ⟨⟨⟨0⟩, .void⟩⟩

/-- The activation of a method. -/
structure Frame where
  method : MethodId
  /-- The frame that made the call and the call; the first frame has none. -/
  caller? : Option (Nat × StmtId)
  deriving DecidableEq, Repr

/-- What holds an object or nothing. Frames and objects are given by their numbers. -/
inductive Location where
  | var (frame : Nat) (v : VarId)
  | staticField (f : FieldId)
  | instanceField (base : Nat) (f : FieldId)
  | element (base index : Nat)
  deriving DecidableEq, Repr

/-- A configuration of an execution. -/
structure Config where
  objects : Array Instance
  frames : Array Frame
  /-- The number of the object that a location holds. -/
  store : Location → Option Nat

/-- The frame and the statement of a step, and the index at which it accesses an array. -/
structure Choice where
  frame : Nat
  stmt : StmtId
  index : Nat
  deriving DecidableEq, Repr

namespace Config

/-- One frame of the entry method, in which all variables are empty. -/
def start (entry : MethodId) : Config := ⟨#[], #[⟨entry, none⟩], fun _ => none⟩

def objectAt (c : Config) (o : Nat) : Instance := c.objects.getD o default

/-- Lets a location hold an object or nothing. -/
def assign (c : Config) (l : Location) (value : Option Nat) : Config :=
  { c with store := fun l' => if l' = l then value else c.store l' }

def copy (c : Config) (source target : Location) : Config := c.assign target (c.store source)

def allocate (c : Config) (l : Location) (x : Instance) : Config :=
  { c with objects := c.objects.push x }.assign l (some c.objects.size)

/-- What the variables of a body are bound to by a call: the receiver, and the arguments by position
as far as both lists go. -/
def bindings (c : Config) (caller : Nat) (call : Invoke) (receiver : Option Nat) (b : Body) :
    List (VarId × Option Nat) :=
  b.this?.toList.map (·, receiver) ++
    (call.args.zip b.params).map fun pair => (pair.2, c.store (.var caller pair.1))

def bind (c : Config) (frame : Nat) (bs : List (VarId × Option Nat)) : Config :=
  bs.foldl (fun c b => c.assign (.var frame b.1) b.2) c

def enter (p : Program) (c : Config) (caller : Nat) (s : StmtId) (call : Invoke)
    (receiver : Option Nat) (m : MethodId) : Config :=
  { c with frames := c.frames.push ⟨m, some (caller, s)⟩ }.bind c.frames.size
    (((p.methodAt m).body?.map (c.bindings caller call receiver)).getD [])

/-- Makes a call: one without a receiver is resolved as it stands, any other with the type of its
receiver. -/
def invoke (p : Program) (c : Config) (frame : Nat) (s : StmtId) (call : Invoke) : Config :=
  match call.binding.base? with
  | none => (p.resolveCallee? none call).elim c (c.enter p frame s call none)
  | some base =>
    match c.store (.var frame base) with
    -- there is no receiver
    | none => c
    | some o =>
      (p.resolveCallee? (some (c.objectAt o).type) call).elim c (c.enter p frame s call (some o))

/-- Copies a variable of a frame into the variable for the result of its call. -/
def leave (p : Program) (c : Config) (frame : Nat) (caller? : Option (Nat × StmtId)) (v : VarId) :
    Config :=
  match caller? with
  -- the first frame returns to nobody
  | none => c
  | some (caller, s) =>
    match (p.stmtAt s).invoke?.bind (·.result?) with
    | none => c
    | some x => c.copy (.var frame v) (.var caller x)

def execute (p : Program) (c : Config) (frame : Nat) (caller? : Option (Nat × StmtId)) (s : StmtId)
    (index : Nat) : Config :=
  match (p.stmtAt s).kind with
  | .new lhs type => c.allocate (.var frame lhs) ⟨s, type⟩
  | .copy lhs rhs => c.copy (.var frame rhs) (.var frame lhs)
  | .instanceStore base f rhs =>
    (c.store (.var frame base)).elim c fun o => c.copy (.var frame rhs) (.instanceField o f)
  | .instanceLoad lhs base f =>
    (c.store (.var frame base)).elim c fun o => c.copy (.instanceField o f) (.var frame lhs)
  | .staticStore f rhs => c.copy (.var frame rhs) (.staticField f)
  | .staticLoad lhs f => c.copy (.staticField f) (.var frame lhs)
  | .arrayStore base rhs =>
    (c.store (.var frame base)).elim c fun o => c.copy (.var frame rhs) (.element o index)
  | .arrayLoad lhs base =>
    (c.store (.var frame base)).elim c fun o => c.copy (.element o index) (.var frame lhs)
  | .invoke call => c.invoke p frame s call
  | .ret value => value.elim c (c.leave p frame caller?)

/-- A step. A choice of a frame that does not exist, or of a statement that is not one of the method of
the frame, has no effect. -/
def step (p : Program) (c : Config) (x : Choice) : Config :=
  match c.frames[x.frame]? with
  | none => c
  | some frame =>
    if x.stmt ∈ p.stmtsOf frame.method then c.execute p x.frame frame.caller? x.stmt x.index else c

/-- The configuration after the steps of some choices. -/
def run (p : Program) (c : Config) (xs : List Choice) : Config := xs.foldl (step p) c

end Config

end PointsTo
