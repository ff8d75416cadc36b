import PointsTo.Command.Arguments
import PointsTo.Command.Error
import PointsTo.Command.Report
import PointsTo.Pattern.Match
import PointsTo.Pattern.Parser
import PointsTo.Program.Builder
import PointsTo.Program.Drawing
import PointsTo.Result.CallGraph
import PointsTo.Solver.Extension

/-!
# The tools

Three tools load a program: one draws its class hierarchy, one lists or draws its call graph, and one
reports its points-to sets. The suite runs any of them by name. What a tool does to the world goes through
a `Host`, so that the tools themselves are the same over files and over a model of files.
-/

namespace PointsTo.Command

/-- What is found at a path. -/
inductive FileContent where
  | text (s : String)
  /-- There is something, but no text. -/
  | unreadable
  /-- Nothing can be opened. -/
  | missing
  deriving DecidableEq, Repr

/-- The world around a tool. -/
structure Host (m : Type → Type) where
  read : String → m FileContent
  /-- Replaces a file; the answer tells whether that was possible. -/
  write : String → String → m Bool
  print : String → m Unit
  /-- Writes a line of the log. -/
  logLine : String → m Unit

inductive Tool where
  | callgraph
  | hierarchy
  | pointsto
  deriving DecidableEq, Repr

namespace Tool

def all : List Tool := [callgraph, hierarchy, pointsto]

def name : Tool → String
  | callgraph => "callgraph"
  | hierarchy => "hierarchy"
  | pointsto => "pointsto"

def commonOptions : List OptionName := [.debug, .verbose, .structuredLog, .input, .output]

def analysisOptions : List OptionName :=
  [.filterClass, .filterMethod, .selector, .entry, .mockMainArgs, .options]

/-- What the tool expects on its command line. -/
def signature : Tool → Signature
  | callgraph => ⟨commonOptions ++ analysisOptions, [.input], true⟩
  | hierarchy => ⟨commonOptions, [.input], true⟩
  | pointsto => ⟨commonOptions ++ analysisOptions ++ [.contexts, .stats], [.input], true⟩

end Tool

section Actions

variable {m : Type → Type} [Monad m] (host : Host m) (given : Given)

/-- An action of a tool. -/
abbrev ToolM (m : Type → Type) := ExceptT CommandError m

/-- The least severe records that are shown. -/
def logThreshold : Severity :=
  if given.has .verbose then .trace else if given.has .debug then .debug else .info

/-- A log record as a line, which is a JSON document if the log is to be structured. -/
def logText (r : LogRecord) : String :=
  if given.has .structuredLog then
    (Json.record [("log.level", Json.str r.severity.label), ("message", Json.str r.text)]).compress
  else r.line

/-- Writes the records that are to be shown. -/
def showLog (log : Log) : ToolM m Unit :=
  (log.toList.filter (·.visibleAt (logThreshold given))).forM fun r =>
    host.logLine (logText given r)

/-- Writes a record, if it is to be shown. -/
def showRecord (severity : Severity) (text : String) : ToolM m Unit :=
  showLog host given #[⟨severity, text⟩]

def printText (text : String) : ToolM m Unit := host.print text

def writeFile (kind path content : String) : ToolM m Unit := do
  if ← host.write path content then
    showRecord host given .info (kind ++ " output written in " ++ Text.quote path)
  else throw (.file path)

def loadProgram : ToolM m Program := do
  let path := (given.value? .input).getD ""
  let content ← match ← host.read path with
    | .missing => throw (.file path)
    | .unreadable => throw (.load .notADocument)
    | .text content => pure content
  let (result, log) := Program.load content
  showLog host given log
  match result with
  | .error e => throw (.load e)
  | .ok p =>
    showRecord host given .info (Text.quote path ++ " loaded: " ++ toString p.classes.size
      ++ " classes, " ++ toString p.methods.size ++ " methods")
    let missing := p.missingClasses
    unless missing.isEmpty do
      showRecord host given .debug (toString missing.length ++ " phantom classes: "
        ++ String.intercalate ", " missing)
    return p

/-- The options of a file, or the defaults. -/
def readOptions : ToolM m Options := do
  match given.value? .options with
  | none => return default
  | some path =>
    match ← host.read path with
    | .text content =>
      match Options.parse? content with
      | some o => return o
      | none => throw (.analysis .invalidOptions)
    | _ => throw (.file path)

/-- The options of a file or the defaults, with those of the command line put over them. -/
def chooseOptions : ToolM m Options := do
  let o ← readOptions host given
  return {
    selector := ((given.value? .selector).bind Selector.parse?).getD o.selector
    entry := (given.value? .entry).orElse fun _ => o.entry
    mockMainArgs := given.has .mockMainArgs || o.mockMainArgs }

/-- Loads a program and analyses it. -/
def analyseProgram : ToolM m (Solution × Options) := do
  let p ← loadProgram host given
  let o ← chooseOptions host given
  let outcome := p.analyse o
  showLog host given outcome.log
  match outcome.result with
  | .error e => throw (.analysis e)
  | .ok r => return (r, o)

def readPattern (o : OptionName) : ToolM m (Option Pattern) :=
  match given.value? o with
  | none => return none
  | some text =>
    match Pattern.parse? text with
    | some p => return some p
    | none => throw (.pattern text)

/-- The patterns of the class filter and of the method filter. -/
def readFilters : ToolM m (Option Pattern × Option Pattern) := do
  let classPattern ← readPattern given .filterClass
  let methodPattern ← readPattern given .filterMethod
  return (classPattern, methodPattern)

/-- A method passes the filters: those that are given match its class and its name. -/
def passes (filters : Option Pattern × Option Pattern) (className name : String) : Bool :=
  filters.1.all (·.isMatch className) && filters.2.all (·.isMatch name)

/-- Draws the class hierarchy. -/
def runHierarchy : ToolM m Unit := do
  let p ← loadProgram host given
  match given.value? .output with
  | some path => writeFile host given "dot" path p.hierarchyDot
  | none => printText host (p.hierarchyDot ++ "\n")

/-- The calls of a call graph, one on a line. -/
def callLines (p : Program) (g : CallGraph) : String :=
  String.join (g.methods.flatMap fun n =>
    (g.calleesOf n.id).map fun callee => n.text ++ " -> " ++ p.methodText callee ++ "\n")

/-- Lists or draws the call graph. -/
def runCallgraph : ToolM m Unit := do
  let (r, o) ← analyseProgram host given
  let whole := CallGraph.ofSolution r
  let g ←
    if !given.has .filterClass && !given.has .filterMethod then pure whole
    else do
      let filters ← readFilters given
      pure (whole.restrict fun n => passes filters n.className n.name)
  showRecord host given .info ("callgraph contains " ++ toString g.methods.length
    ++ " methods and " ++ toString g.calls.length ++ " edges (" ++ o.selector.text ++ " analysis)")
  showRecord host given .info ("    - " ++ toString (g.methods.filter (!·.isDefined)).length
    ++ " methods without body")
  match given.value? .output with
  | some path => writeFile host given "dot" path g.dot
  | none => printText host (callLines r.program g)

/-- Reports the points-to sets, or only the statistics. -/
def runPointsto : ToolM m Unit := do
  let (r, o) ← analyseProgram host given
  if given.has .stats then
    printText host (r.statistics.text ++ "\n")
  else
    let filters ← readFilters given
    let methods := r.reachableMethods.filter fun id =>
      let method := r.program.methodAt id
      passes filters (r.program.classAt method.owner).name method.ref.subsignature.name
    showRecord host given .debug (toString methods.length ++ " reachable methods selected")
    let entries := methods.map (methodEntry r (given.has .contexts))
    match given.value? .output with
    | some path =>
      writeFile host given "json" path ((reportJson r o.selector entries).pretty ++ "\n")
    | none => printText host (String.join (entries.map (·.lines r.program)))

end Actions

/-- How a command ended. -/
inductive Ending where
  | done
  /-- Help or the version was shown. -/
  | shown
  | misused
  | failed (e : CommandError)
  deriving DecidableEq, Repr

def Ending.exitCode : Ending → Nat
  | done => 0
  | shown => 0
  | misused => 2
  | failed e => if e.isAbort then 101 else 1

/-- The ending that arguments lead to that start no tool. -/
def Stop.ending : Stop → Ending
  | shown => .shown
  | misused => .misused

section Commands

variable {m : Type → Type} [Monad m] (host : Host m)

/-- The work of a tool, once its arguments are known. -/
def Tool.action (t : Tool) (given : Given) : ToolM m Unit :=
  match t with
  | .callgraph => runCallgraph host given
  | .hierarchy => runHierarchy host given
  | .pointsto => runPointsto host given

/-- Runs a tool with the arguments of its command line. -/
def Tool.run (t : Tool) (args : List String) : m Ending :=
  match t.signature.parse args with
  | .error stop => pure stop.ending
  | .ok given => do
    match ← (t.action host given).run with
    | .ok () => return .done
    | .error e => return .failed e

/-- What the generator of shell completions expects. -/
def completionsSignature : Signature := ⟨[.shell], [.shell], false⟩

def completionsName : String := "gen-completions"

def commandNames : List String := Tool.all.map (·.name) ++ [completionsName, "help"]

/-- A line for the completion of the names of the commands. -/
def completions : String := "complete -W \"" ++ String.intercalate " " commandNames ++ "\"\n"

def runCompletions (args : List String) : m Ending :=
  match completionsSignature.parse args with
  | .error stop => pure stop.ending
  | .ok _ => do
    host.print completions
    return .done

/-- Shows help: on the suite, or on a command. -/
def runHelp : List String → Ending
  | [] => .shown
  | [command] => if commandNames.contains command then .shown else .misused
  | _ => .misused

/-- What an argument in the place of a command amounts to. -/
def refuse (arg : String) (rest : List String) : Ending :=
  match arg.toList with
  | ['-', '-'] => if rest.isEmpty then .failed (.badArguments "missing subcommand") else .misused
  | '-' :: 'h' :: _ => .shown
  | '-' :: 'V' :: _ => .shown
  | _ => if arg = "--help" || arg = "--version" then .shown else .misused

/-- Runs a command of the suite. -/
def runSuite : List String → m Ending
  | [] => pure (.failed (.badArguments "missing subcommand"))
  | command :: args =>
    match Tool.all.find? (·.name = command) with
    | some t => t.run host args
    | none =>
      if command = completionsName then runCompletions host args
      else if command = "help" then pure (runHelp args)
      else pure (refuse command args)

end Commands

end PointsTo.Command
