import PointsTo.Log
import PointsTo.Program.Document
import PointsTo.Program.Error
import PointsTo.Program.Lookup

/-!
# Building programs

Builds the tables of a program from its definition. Classes come first, so that members may refer to
any class whatever the order of declaration; a class that is referenced but not defined becomes a
phantom class. The hierarchy is closed next: every class without a parent inherits from the root, and
no class may be its own ancestor. Then come fields and methods, then bodies, then the entry method.

The log is part of the state, so it is kept when the definition is refused.
-/

namespace PointsTo

/-- The class of the table, before its members are declared. -/
def ClassDef.header (c : ClassDef) : Class :=
  ⟨c.name, true, c.isInterface, c.isInterface || c.isAbstract, [], []⟩

/-- A program under construction, and what was reported so far. -/
structure Draft where
  program : Program
  log : Log

/-- A step of the construction, which may refuse the definition. -/
abbrev Builder := ExceptT LoadError (StateM Draft)

namespace Builder

def report (severity : Severity) (text : String) : Builder Unit :=
  modify fun d => { d with log := d.log.push ⟨severity, text⟩ }

def program : Builder Program := return (← get).program

def update (f : Program → Program) : Builder Unit :=
  modify fun d => { d with program := f d.program }

def readType (s : String) : Builder Ty :=
  match Ty.parse s with
  | .ok t => pure t
  | .error e => throw (.descriptor e)

def readMethodRef (s : String) : Builder MethodRef :=
  match MethodRef.parse s with
  | .ok r => pure r
  | .error e => throw (.descriptor e)

def readFieldRef (s : String) : Builder FieldRef :=
  match FieldRef.parse s with
  | .ok r => pure r
  | .error e => throw (.descriptor e)

/-! ## Classes and their hierarchy -/

def addClass (c : Class) : Builder ClassId := do
  let p ← program
  let id : ClassId := ⟨p.classes.size⟩
  -- The new number is the size of the table, so it is not that of a node.
  if p.isNode id then throw (.hierarchy .duplicateNode)
  update fun p => { p with classes := p.classes.push c }
  return id

/-- Adds a defined class. A phantom class of the name is turned into it; a defined one is not. -/
def defineClass (c : ClassDef) : Builder ClassId := do
  let p ← program
  match p.findClass? c.name with
  | some id =>
    if (p.classAt id).isDefined then throw (.duplicateClass c.name)
    -- The class keeps its number, and with it the links to it.
    update fun p => { p with classes := p.classes.setIfInBounds id.idx c.header }
    return id
  | none =>
    report .trace ("pushing '" ++ c.name ++ "' in program")
    addClass c.header

/-- The class of a name, which is made a phantom class if there is none. -/
def classOrPhantom (name : String) : Builder ClassId := do
  match (← program).findClass? name with
  | some c => return c
  | none =>
    report .debug ("registering phantom class '" ++ name ++ "'")
    addClass ⟨name, false, false, false, [], []⟩

/-- The class has to be a node of the hierarchy. -/
def checkNode (c : ClassId) : Builder Unit := do
  if !(← program).isNode c then throw (.hierarchy (.classNotFound c))

def addLink (child parent : ClassId) (kind : LinkKind) : Builder Unit := do
  checkNode child
  checkNode parent
  update fun p => { p with links := p.links.push ⟨child, parent, kind⟩ }

/-- Adds a link to a superclass. A class has one superclass at most. -/
def addSuperclass (child parent : ClassId) : Builder Unit := do
  if ((← program).superclass? child).isSome then throw (.hierarchy (.secondSuperclass child))
  addLink child parent .extends

def linkSuperclass (c : ClassId) : Option String → Builder Unit
  | none => pure ()
  | some name => do addSuperclass c (← classOrPhantom name)

def linkInterface (c : ClassId) (name : String) : Builder Unit := do
  addLink c (← classOrPhantom name) .implements

/-- Makes sure that the class of the objects that a statement allocates exists. -/
def mentionAllocated : StmtDef → Builder Unit
  | .new _ type => do
    match (← readType type).className? with
    | some name => discard (classOrPhantom name)
    | none => pure ()
  | _ => pure ()

/-- Links a class to its parents, and makes sure that the classes of which its methods allocate
objects exist. -/
def linkClass (c : ClassId) (d : ClassDef) : Builder Unit := do
  linkSuperclass c d.superclass
  d.interfaces.forM (linkInterface c)
  (d.methods.flatMap (·.body)).forM mentionAllocated

/-- Classes without a parent, except for the root. -/
def orphans (p : Program) (root : ClassId) : List ClassId :=
  p.classIds.filter fun c => c ≠ root ∧ p.parents c = []

/-- Makes a class without a parent inherit from the root. -/
def adopt (root c : ClassId) : Builder Unit := do
  let name := ((← program).classAt c).name
  report .debug ("add missing java.lang.Object inheritance to " ++ name)
  addSuperclass c root

/-- Makes every class inherit from the root, and refuses a cyclic hierarchy. -/
def closeHierarchy : Builder Unit := do
  let root ← classOrPhantom rootClassName
  -- A class that declares any parent keeps what it has.
  (orphans (← program) root).forM (adopt root)
  if (← program).isCyclic then throw .cyclicHierarchy

/-! ## Fields and methods -/

/-- Inserts an entry in front of the first one with a greater key. -/
def insertEntry {α β : Type} [Ord α] (key : α) (value : β) : List (α × β) → List (α × β)
  | [] => [(key, value)]
  | e :: es => if compare key e.1 = .lt then (key, value) :: e :: es else e :: insertEntry key value es

def updateClass (c : ClassId) (f : Class → Class) : Builder Unit :=
  update fun p => { p with classes := p.classes.modify c.idx f }

/-- Declares a field, whose name has to be new in its class. -/
def declareField (c : ClassId) (d : FieldDef) : Builder Unit := do
  let type ← readType d.type
  let p ← program
  let field : Field := ⟨c, (p.classAt c).name, d.name, type, d.isStatic⟩
  if (p.declaredField? c d.name).isSome then throw (.duplicateField field.text)
  let id : FieldId := ⟨p.fields.size⟩
  update fun p => { p with fields := p.fields.push field }
  updateClass c fun k => { k with fields := insertEntry d.name id k.fields }

/-- Declares a method, whose subsignature has to be new in its class. -/
def declareMethod (c : ClassId) (d : MethodDef) : Builder MethodId := do
  let params ← d.params.mapM fun v => readType v.type
  let result ← readType d.result
  let s : Subsignature := ⟨d.name, params, result⟩
  let p ← program
  let ref : MethodRef := ⟨(p.classAt c).name, s⟩
  if (p.declared? c s).isSome then throw (.duplicateMethod ref.text)
  let id : MethodId := ⟨p.methods.size⟩
  update fun p => { p with
    methods := p.methods.push ⟨c, ref, d.isStatic, d.isAbstract, d.isNative, none⟩ }
  updateClass c fun k => { k with methods := insertEntry s id k.methods }
  return id

/-- Declares the members of a class: its fields, then its methods. -/
def declareMembers (c : ClassId) (d : ClassDef) : Builder (List (MethodId × MethodDef)) := do
  d.fields.forM (declareField c)
  d.methods.mapM fun m => return (← declareMethod c m, m)

/-! ## Bodies -/

/-- The variables that the statements of a method can name. -/
structure Scope where
  method : MethodId
  /-- The method as text. -/
  methodText : String
  vars : List (String × VarId)

/-- Declares a variable, whose name has to be new in the scope. -/
def declareVar (scope : Scope) (name : String) (type : Ty) : Builder Scope := do
  if (scope.vars.lookup name).isSome then throw (.duplicateVar scope.methodText name)
  let id : VarId := ⟨(← program).vars.size⟩
  update fun p => { p with vars := p.vars.push ⟨scope.method, name, type, [], [], [], [], []⟩ }
  return { scope with vars := scope.vars ++ [(name, id)] }

/-- Declares the receiver of an instance method. -/
def declareThis (scope : Scope) (m : Method) : Builder Scope :=
  if m.isStatic then pure scope
  else do declareVar scope "this" (.ofClass ((← program).classAt m.owner).name)

def declareVars (scope : Scope) (ds : List VarDef) : Builder Scope :=
  ds.foldlM (fun scope d => do declareVar scope d.name (← readType d.type)) scope

def findVar (scope : Scope) (name : String) : Builder VarId :=
  match scope.vars.lookup name with
  | some v => pure v
  | none => throw (.unknownVar scope.methodText name)

/-- The field that a statement accesses, on an instance or statically as it is declared. -/
def findField (scope : Scope) (index : Nat) (ref : String) (onInstance : Bool) :
    Builder FieldId := do
  let r ← readFieldRef ref
  let p ← program
  match p.resolveField? r with
  | none => throw (.fieldNotFound r.text)
  | some f =>
    if (p.fieldAt f).isStatic && onInstance then
      throw (.malformedStmt scope.methodText index "static field accessed through an instance")
    if !(p.fieldAt f).isStatic && !onInstance then
      throw (.malformedStmt scope.methodText index "instance field accessed statically")
    return f

/-- How a call is bound. A call has a receiver unless it is static. -/
def resolveBinding (scope : Scope) (index : Nat) : CallKind → Option String → Builder Binding
  | .static, none => return .static
  | .static, some _ =>
    throw (.malformedStmt scope.methodText index "static invocation with a receiver")
  | .special, some base => return .special (← findVar scope base)
  | .virtual, some base => return .virtual (← findVar scope base)
  | .interface, some base => return .interface (← findVar scope base)
  | _, none =>
    throw (.malformedStmt scope.methodText index "instance invocation without receiver")

/-- The variable of a name that may be missing. -/
def findVar? (scope : Scope) : Option String → Builder (Option VarId)
  | none => return none
  | some name => return some (← findVar scope name)

/-- Resolves the names and references of a statement. -/
def resolveStmt (scope : Scope) (index : Nat) : StmtDef → Builder StmtKind
  | .new lhs type => do
    let t ← readType type
    if !t.isReference then
      throw (.malformedStmt scope.methodText index "allocation of a non reference type")
    return .new (← findVar scope lhs) t
  | .copy lhs rhs => return .copy (← findVar scope lhs) (← findVar scope rhs)
  | .storeField (some base) field rhs =>
    return .instanceStore (← findVar scope base) (← findField scope index field true)
      (← findVar scope rhs)
  | .storeField none field rhs =>
    return .staticStore (← findField scope index field false) (← findVar scope rhs)
  | .loadField lhs (some base) field =>
    return .instanceLoad (← findVar scope lhs) (← findVar scope base)
      (← findField scope index field true)
  | .loadField lhs none field =>
    return .staticLoad (← findVar scope lhs) (← findField scope index field false)
  | .storeArray base rhs => return .arrayStore (← findVar scope base) (← findVar scope rhs)
  | .loadArray lhs base => return .arrayLoad (← findVar scope lhs) (← findVar scope base)
  | .invoke kind base method args result => do
    let target ← readMethodRef method
    let binding ← resolveBinding scope index kind base
    let args ← args.mapM (findVar scope)
    -- A wrong number of arguments is no reason to refuse the program.
    if args.length ≠ target.subsignature.params.length then
      report .warn (scope.methodText ++ "@" ++ toString index ++ ": " ++ toString args.length
        ++ " arguments given to " ++ target.text)
    return .invoke ⟨binding, target, args, ← findVar? scope result⟩
  | .ret value => return .ret (← findVar? scope value)

/-- Adds a statement to the index of its base variable. -/
def indexStmt (s : StmtId) (kind : StmtKind) (vars : Array Var) : Array Var :=
  match kind with
  | .instanceStore base _ _ =>
    vars.modify base.idx fun v => { v with storeFields := v.storeFields ++ [s] }
  | .instanceLoad _ base _ =>
    vars.modify base.idx fun v => { v with loadFields := v.loadFields ++ [s] }
  | .arrayStore base _ =>
    vars.modify base.idx fun v => { v with storeArrays := v.storeArrays ++ [s] }
  | .arrayLoad _ base =>
    vars.modify base.idx fun v => { v with loadArrays := v.loadArrays ++ [s] }
  | .invoke call =>
    match call.binding.base? with
    | some base => vars.modify base.idx fun v => { v with invokes := v.invokes ++ [s] }
    | none => vars
  | _ => vars

/-- Adds the statement at an index of the body of a method. -/
def addStmt (scope : Scope) (d : StmtDef × Nat) : Builder (StmtId × StmtKind) := do
  let kind ← resolveStmt scope d.2 d.1
  let id : StmtId := ⟨(← program).stmts.size⟩
  update fun p => { p with
    stmts := p.stmts.push ⟨scope.method, d.2, kind⟩
    vars := indexStmt id kind p.vars }
  return (id, kind)

/-- The variable that a statement returns. -/
def returned? : StmtKind → Option VarId
  | .ret value => value
  | _ => none

/-- Builds the body of a method. -/
def buildBody (id : MethodId) (d : MethodDef) : Builder Body := do
  let p ← program
  let thisScope ← declareThis ⟨id, p.methodText id, []⟩ (p.methodAt id)
  let paramScope ← declareVars thisScope d.params
  let scope ← declareVars paramScope d.locals
  let stmts ← d.body.zipIdx.mapM (addStmt scope)
  return {
    -- The receiver is the first variable, if there is one. The parameters follow it.
    this? := thisScope.vars.head?.map (·.2)
    params := (paramScope.vars.drop thisScope.vars.length).map (·.2)
    returns := (stmts.filterMap fun s => returned? s.2).eraseDups
    vars := scope.vars.map (·.2)
    stmts := stmts.map (·.1) }

/-- Builds the implementation of a method. Abstract and native methods have none, whatever their
definition says. -/
def implement (m : MethodId × MethodDef) : Builder Unit := do
  if m.2.isAbstract || m.2.isNative then
    unless m.2.body.isEmpty do
      report .warn ("ignoring the body of " ++ (if m.2.isAbstract then "abstract" else "native")
        ++ " method " ++ (← program).methodText m.1)
  else
    let body ← buildBody m.1 m.2
    update fun p => { p with
      methods := p.methods.modify m.1.idx fun k => { k with body? := some body } }

/-! ## The entry method -/

/-- Static methods with the name of an entry method. -/
def mainMethods (p : Program) : List MethodId :=
  p.methodIds.filter fun m =>
    (p.methodAt m).isStatic && (p.methodAt m).ref.subsignature.name = "main"

/-- The entry method: the declared one, which has to exist, or else the only static method with the
name of an entry method. -/
def selectEntry : Option String → Builder (Option MethodId)
  | some entry => do
    let r ← readMethodRef entry
    match (← program).findMethod? r with
    | some m => return some m
    | none => throw (.methodNotFound entry)
  | none => do
    match mainMethods (← program) with
    | [m] => return some m
    | [] => report .debug "no entry method in program"; return none
    | _ => report .warn "several static main methods, no entry selected"; return none

/-! ## Programs -/

def build (d : ProgramDef) : Builder Unit := do
  -- All classes are there before members are declared, and all members before bodies are built.
  let ids ← d.classes.mapM defineClass
  let classes := ids.zip d.classes
  classes.forM fun c => linkClass c.1 c.2
  closeHierarchy
  let methods ← classes.mapM fun c => declareMembers c.1 c.2
  methods.flatten.forM implement
  let entry? ← selectEntry d.entry
  update fun p => { p with entry? := entry? }
  let p ← program
  report .debug ("program loaded: " ++ toString p.classes.size ++ " classes, "
    ++ toString p.methods.size ++ " methods, " ++ toString p.stmts.size ++ " statements")

end Builder

namespace Program

def build (d : ProgramDef) : Except LoadError Program × Log :=
  let (r, draft) := (Builder.build d).run.run ⟨empty, #[]⟩
  (r.map fun _ => draft.program, draft.log)

def load (document : String) : Except LoadError Program × Log :=
  match ProgramDef.parse? document with
  | none => (.error .notADocument, #[])
  | some d => build d

end Program

end PointsTo
