import PointsTo.Solver.Run

/-!
# Stock extensions

Extensions that need no programming: mock arguments of the entry method, a journal of the run, mock
objects for the results of chosen calls, and additional facts and flow edges.
-/

namespace PointsTo

/-- A mock object to be made: its description and type. -/
structure MockSpec where
  description : String
  type : Ty
  deriving DecidableEq, Repr

/-- The stock extensions. -/
inductive Extension where
  /-- The first parameter of the entry method is an array with an element. -/
  | mainArgs
  /-- Keeps a journal of everything that it is told. -/
  | trace
  /-- Registers a journal when the first method is reached. -/
  | spawn (spawned : Bool)
  /-- Methods of a name return a mock object. -/
  | source (callee : String) (object : MockSpec)
  /-- A variable points to a mock object, from the start of the run. -/
  | injectAtStart (v : VarId) (object : MockSpec)
  /-- A variable is given a mock object when the run is over. -/
  | injectAtEnd (v : VarId) (object : MockSpec)
  /-- The objects of a variable flow into another. -/
  | flow (source target : VarId)
  deriving DecidableEq, Repr

namespace Extension

/-- A script of stock extensions without a result. -/
abbrev Action := Script Extension Unit

/-- Makes the first parameter of an entry method an array with an element, if it is an array of
objects. -/
def mockArguments (p : Program) (entry : CsMethod) : Action :=
  let method := p.methodAt entry.method
  let methodText := p.methodText entry.method
  match method.body?.bind (·.params.head?) with
  | none =>
    .report .warn ("entry method " ++ methodText ++ " has no argument to mock") (.done ())
  | some param =>
    let type := (p.varAt param).type
    match type.element?.filter (·.className?.isSome) with
    | none =>
      .report .warn ("first argument of entry method " ++ methodText
        ++ " is not an array of objects") (.done ())
    | some elementType =>
      -- Both objects and the contexts are there before anything is put on the work list.
      .mock "<main-args>" type method.owner fun arrayObject =>
      .mock "<main-arg>" elementType method.owner fun elementObject =>
      .object entry.context arrayObject fun array =>
      .object entry.context elementObject fun element =>
      .pointer (.arrayIndex array) fun slot =>
      .pointer (.var entry.context param) fun arguments =>
      .report .debug ("mocking arguments of entry method " ++ methodText) <|
      .inject slot (.singleton element) <|
      .inject arguments (.singleton array) <|
      .done ()

/-- Mocks the arguments of the entry methods. -/
def mockEntries (p : Program) : Action :=
  .view fun s => s.calls.entries.toList.forM fun m => mockArguments p (s.elements.method m)

def objectsText (objects : ObjectSet) : String :=
  String.intercalate "," (objects.toList.map (·.text))

/-- A notice as it is written in the journal. -/
def eventText (o : Options) (s : State) : Notice → String
  | .started => "start " ++ o.selector.text ++ " entries=" ++ toString s.calls.entries.size
  | .methodReached m =>
    "method " ++ m.text ++ " " ++ (s.elements.method m).context.text ++ " pfg="
      ++ toString s.flow.edgeCount
  | .callAdded e => "edge " ++ e.kind.text ++ " " ++ e.callSite.text ++ " " ++ e.callee.text
  | .objectsAdded p objects =>
    "pts " ++ p.text ++ " +" ++ objectsText objects ++ " =" ++ objectsText (s.elements.pointsTo p)
  | .finished =>
    "finish pfg=" ++ toString s.flow.pointerCount ++ "/" ++ toString s.flow.edgeCount

/-- Adds a mock object, in the empty context, to the objects of a variable. -/
def injectMock (object : MockSpec) (container : ClassId) (context : Context) (v : VarId) : Action :=
  .mock object.description object.type container fun o =>
  .object [] o fun o =>
  .pointer (.var context v) fun p =>
  .inject p (.singleton o) <|
  .done ()

/-- Adds a mock object to the objects of a variable in the empty context. -/
def injectVar (p : Program) (v : VarId) (object : MockSpec) : Action :=
  injectMock object (p.methodAt (p.varAt v).method).owner [] v

/-- Adds a mock object to the objects of the result of a call, if the callee has the given name. -/
def injectResult (p : Program) (callee : String) (object : MockSpec) (e : CallEdge) : Action :=
  .view fun s =>
    let method := p.methodAt (s.elements.method e.callee).method
    let site := s.elements.callSite e.callSite
    match (p.stmtAt site.stmt).invoke?.bind (·.result?) with
    | some result =>
      if method.ref.subsignature.name = callee then
        injectMock object method.owner site.context result
      else .done ()
    | none => .done ()

/-- Adds a flow edge between variables in the empty context. -/
def addFlow (source target : VarId) : Action :=
  .pointer (.var [] source) fun i =>
  .pointer (.var [] target) fun j =>
  .flow i j <|
  .done ()

/-- How the stock extensions answer notices. -/
def react (p : Program) (o : Options) : Reaction Extension
  | .started, mainArgs => do mockEntries p; return mainArgs
  | n, trace => .view fun s => .note (eventText o s n) (.done trace)
  -- It registers a trace for the first method that is reached, and none after that.
  | .methodReached _, spawn false => .register trace (.done (spawn true))
  | .callAdded e, source callee object => do
    injectResult p callee object e
    return source callee object
  | .started, injectAtStart v object => do injectVar p v object; return injectAtStart v object
  | .finished, injectAtEnd v object => do injectVar p v object; return injectAtEnd v object
  | .started, flow v w => do addFlow v w; return flow v w
  | _, e => return e

end Extension

/-- Runs the solver with stock extensions. The arguments of the entry method are mocked first, if the
options ask for it. -/
def Analysis.solveWith (a : Analysis) (extensions : List Extension) : Outcome :=
  a.solve (Extension.react a.program a.options)
    ((if a.options.mockMainArgs then [.mainArgs] else []) ++ extensions)

/-- Runs the points-to analysis of a program. -/
def Program.analyse (p : Program) (o : Options) : Outcome :=
  Analysis.solveWith ⟨p, o, o.selector, .allocationSite⟩ []

end PointsTo
