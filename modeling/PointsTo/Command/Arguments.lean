import PointsTo.Context.Selector

/-!
# Command line arguments

Options are switches or take a value, have a long name and may have a short one. A value follows its
option as the next argument or is attached to it: `--cs 2-obj`, `--cs=2-obj`, `-c 2-obj`, `-c2-obj`. Short
switches can be grouped. No option may be given twice, and there are no other arguments.
-/

namespace PointsTo.Command

/-- The options of the tools. -/
inductive OptionName where
  | debug
  | verbose
  | structuredLog
  | input
  | output
  | filterClass
  | filterMethod
  | selector
  | entry
  | mockMainArgs
  | options
  | contexts
  | stats
  | shell
  deriving DecidableEq, Repr

namespace OptionName

/-- The long name, after two dashes. -/
def long : OptionName → String
  | debug => "debug"
  | verbose => "verbose"
  | structuredLog => "ecslog"
  | input => "input"
  | output => "output"
  | filterClass => "filter-class"
  | filterMethod => "filter-method"
  | selector => "cs"
  | entry => "entry"
  | mockMainArgs => "mock-main-args"
  | options => "options"
  | contexts => "contexts"
  | stats => "stats"
  | shell => "shell"

/-- The short name, after one dash. -/
def short? : OptionName → Option Char
  | debug => some 'd'
  | verbose => some 'v'
  | structuredLog => some 'e'
  | input => some 'i'
  | output => some 'o'
  | selector => some 'c'
  | stats => some 's'
  | shell => some 's'
  | _ => none

def takesValue : OptionName → Bool
  | debug | verbose | structuredLog | mockMainArgs | contexts | stats => false
  | _ => true

/-- Shells that are known. -/
def shells : List String := ["bash", "elvish", "fish", "powershell", "zsh"]

/-- The text is a value of the option. -/
def accepts : OptionName → String → Bool
  | selector, s => (Selector.parse? s).isSome
  | shell, s => shells.contains s
  | _, _ => true

end OptionName

/-- Why the arguments do not start a tool. -/
inductive Stop where
  /-- Help or the version was asked for. -/
  | shown
  /-- The arguments are wrong. -/
  | misused
  deriving DecidableEq, Repr

/-- What a command expects. -/
structure Signature where
  options : List OptionName
  required : List OptionName
  /-- The version can be asked for. -/
  hasVersion : Bool

/-- The options that were given, with their values. A switch has the empty value. -/
abbrev Given := List (OptionName × String)

namespace Given

def value? (g : Given) (o : OptionName) : Option String := g.lookup o

def has (g : Given) (o : OptionName) : Bool := (g.lookup o).isSome

/-- Adds an option, which has to be new, with an acceptable value. -/
def add (g : Given) (o : OptionName) (value : String) : Except Stop Given :=
  if g.has o || !o.accepts value then .error .misused else .ok (g ++ [(o, value)])

end Given

/-- Arguments that are being read. -/
structure Progress where
  given : Given
  /-- The option whose value comes next. -/
  waiting : Option OptionName
  /-- Two dashes were read, which end the options. -/
  closed : Bool

namespace Progress

/-- Reads a group of short options. -/
def readGroup (s : Signature) (p : Progress) : List Char → Except Stop Progress
  | [] => .ok p
  | 'h' :: _ => .error .shown
  | c :: cs =>
    if c = 'V' && s.hasVersion then .error .shown
    else
      match s.options.find? (·.short? = some c) with
      | none => .error .misused
      | some o =>
        if o.takesValue then
          match cs with
          | [] => .ok { p with waiting := some o }
          | '=' :: value => return { p with given := ← p.given.add o (String.ofList value) }
          | value => return { p with given := ← p.given.add o (String.ofList value) }
        else do readGroup s { p with given := ← p.given.add o "" } cs

/-- Reads a long option, whose value may be attached after an equals sign. -/
def readLong (s : Signature) (p : Progress) (name : String) (value : Option String) :
    Except Stop Progress :=
  if name = "help" || (name = "version" && s.hasVersion) then
    .error (if value.isNone then .shown else .misused)
  else
    match s.options.find? (·.long = name) with
    | none => .error .misused
    | some o =>
      match o.takesValue, value with
      | true, some v => return { p with given := ← p.given.add o v }
      | true, none => .ok { p with waiting := some o }
      | false, none => return { p with given := ← p.given.add o "" }
      | false, some _ => .error .misused

/-- An argument that does not start with a dash, or is just one, can be a value. -/
def isValue (arg : List Char) : Bool := arg.head? != some '-' || arg = ['-']

/-- Cuts a text at the first equals sign. -/
def splitValue (cs : List Char) : String × Option String :=
  (String.ofList (cs.takeWhile (· != '=')),
    match cs.dropWhile (· != '=') with
    | [] => none
    | _ :: value => some (String.ofList value))

def read (s : Signature) (p : Progress) (arg : String) : Except Stop Progress :=
  match p.closed, p.waiting, arg.toList with
  | true, _, _ => .error .misused
  | _, some o, cs =>
    if isValue cs then return { p with given := ← p.given.add o arg, waiting := none }
    else .error .misused
  | _, none, ['-', '-'] => .ok { p with closed := true }
  | _, none, '-' :: '-' :: cs => readLong s p (splitValue cs).1 (splitValue cs).2
  | _, none, ['-'] => .error .misused
  | _, none, '-' :: cs => readGroup s p cs
  | _, none, _ => .error .misused

end Progress

/-- Reads the arguments of a command. -/
def Signature.parse (s : Signature) (args : List String) : Except Stop Given := do
  let p ← args.foldlM (Progress.read s) ⟨[], none, false⟩
  if p.waiting.isSome || !s.required.all p.given.has then .error .misused
  return p.given

end PointsTo.Command
