import EventFinder.Number.Numeral

/-!
# Command line arguments

What the program is asked to do. `Arguments.ofList` reads the words of a command line: options, a command,
and further options with the operand of the command. Options have a long name and some a short one, may
stand before or after the operand, and take their value behind an equals sign or as the next word. After
two dashes everything is an operand. An option may be given once, but for the one that asks for more to be
reported. What asks for help is answered at once; everything else that is wrong is a wrong use.
-/

set_option autoImplicit false

namespace EventFinder

namespace CommandLine

/-- Which results are shown, and how. -/
structure Page where
  start : UInt64
  limit : UInt64
  noScoring : Bool
  payload : Bool
  json : Bool
deriving DecidableEq, Repr

/-- The shells for which completions can be asked. -/
inductive Shell where
  | bash
  | elvish
  | fish
  | powershell
  | zsh
deriving DecidableEq, Repr

/-- What the program is asked to do. -/
inductive Command where
  | index (path : String)
  | delete (identity : UInt64)
  | search (text : String) (page : Page)
  | query (text : String) (page : Page)
  | request (text : String) (json : Bool)
  | status (json : Bool)
  | completions (shell : Shell)
deriving DecidableEq, Repr

/-- Does a command read the standard input? -/
def Command.readsInput : Command → Bool
  | index path => path = "-"
  | request text _ => text = "-"
  | _ => false

/-- A command line. How much is to be logged is read and checked, and used for nothing else. -/
structure Arguments where
  dataDirectory : Option String
  verbosity : Nat
  quiet : Bool
  command : Command
deriving DecidableEq, Repr

/-- Why nothing is done: a wrong use, or a question for help. -/
inductive Usage where
  | wrong
  | help
deriving DecidableEq, Repr

/-! ## Options -/

/-- The options. -/
inductive Opt where
  | dataDirectory
  | verbose
  | quiet
  | start
  | limit
  | noScoring
  | payload
  | json
deriving DecidableEq, Repr

namespace Opt

/-- The name behind two dashes. -/
def long : Opt → String
  | dataDirectory => "data-dir"
  | verbose => "verbose"
  | quiet => "quiet"
  | start => "start"
  | limit => "limit"
  | noScoring => "no-scoring"
  | payload => "payload"
  | json => "json"

/-- The letter behind one dash. -/
def short? : Opt → Option Char
  | verbose => some 'v'
  | quiet => some 'q'
  | limit => some 'n'
  | _ => none

/-- Has the option a value? -/
def hasValue : Opt → Bool
  | dataDirectory | start | limit => true
  | _ => false

/-- May the option be given again? -/
def repeats : Opt → Bool
  | verbose => true
  | _ => false

/-- Can the option have this value? -/
def accepts (opt : Opt) (value : String) : Bool :=
  match opt with
  | dataDirectory => value ≠ ""
  | start | limit => (Numeral.unsigned? value).isSome
  | _ => true

/-- The options that may stand anywhere. -/
def anywhere : List Opt := [dataDirectory, verbose, quiet]

/-- The options of the commands that show results. -/
def paging : List Opt := [start, limit, noScoring, payload, json]

end Opt

/-! ## Commands by name -/

/-- The commands, without what is given to them. -/
inductive Verb where
  | index
  | delete
  | search
  | query
  | request
  | status
  | completions
deriving DecidableEq, Repr

namespace Verb

/-- The name of a command. -/
def label : Verb → String
  | index => "index"
  | delete => "delete"
  | search => "search"
  | query => "query"
  | request => "request"
  | status => "status"
  | completions => "completions"

/-- All commands. -/
def all : List Verb := [index, delete, search, query, request, status, completions]

/-- The command of a name. -/
def ofLabel? (s : String) : Option Verb := all.find? fun verb => verb.label = s

/-- The options of a command besides those that may stand anywhere. -/
def options : Verb → List Opt
  | search | query => Opt.paging
  | request | status => [.json]
  | _ => []

end Verb

/-- The shell of a name. -/
def shell? : String → Option Shell
  | "bash" => some .bash
  | "elvish" => some .elvish
  | "fish" => some .fish
  | "powershell" => some .powershell
  | "zsh" => some .zsh
  | _ => none

/-- Can a command have this operand? The status has none, all others have one. -/
def Verb.acceptsOperand (verb : Verb) (operand : String) : Bool :=
  match verb with
  | .index => operand ≠ ""
  | .delete => (Numeral.unsigned? operand).isSome
  | .completions => (shell? operand).isSome
  | .status => false
  | _ => true

/-! ## Reading words -/

/-- What has been given so far, before the command or after it. A flag has an empty value. -/
structure Given where
  options : List (Opt × String)
  operand : Option String
deriving DecidableEq, Repr

/-- Where words stand: before the command, or after it. -/
inductive Level where
  | outer
  | inner (verb : Verb)
deriving DecidableEq, Repr

namespace Level

/-- The options that may stand here. -/
def options : Level → List Opt
  | outer => Opt.anywhere
  | inner verb => verb.options ++ Opt.anywhere

/-- The option of a long name. -/
def long? (level : Level) (name : String) : Option Opt :=
  level.options.find? fun opt => opt.long = name

/-- The option of a letter. -/
def short? (level : Level) (c : Char) : Option Opt :=
  level.options.find? fun opt => opt.short? = some c

end Level

namespace Given

/-- Nothing. -/
def nothing : Given := ⟨[], none⟩

/-- Is an option given? -/
def has (given : Given) (opt : Opt) : Bool := given.options.any fun o => o.1 = opt

/-- The value of an option, if it is given. -/
def value? (given : Given) (opt : Opt) : Option String := given.options.lookup opt

/-- One more option. -/
def add (given : Given) (opt : Opt) (value : String) : Except Usage Given :=
  if given.has opt && !opt.repeats then .error .wrong
  else if opt.accepts value then .ok { given with options := given.options ++ [(opt, value)] }
  else .error .wrong

/-- The operand of a command. Before the command there is none. -/
def addOperand (level : Level) (given : Given) (operand : String) : Except Usage Given :=
  match level, given.operand with
  | .inner verb, none =>
      if verb.acceptsOperand operand then .ok { given with operand := some operand }
      else .error .wrong
  | _, _ => .error .wrong

end Given

/-- Does a word stand for options, so that it cannot be the value of one? -/
def isDashed (word : String) : Bool :=
  match word.toList with
  | '-' :: _ :: _ => true
  | _ => false

/-- A word split at its first equals sign. -/
def splitEquals (cs : List Char) : String × Option String :=
  let name := String.ofList (cs.takeWhile (· ≠ '='))
  match cs.dropWhile (· ≠ '=') with
  | [] => (name, none)
  | _ :: value => (name, some (String.ofList value))

/-- The letters behind one dash. Gives the option that waits for its value, if there is one. -/
def readLetters (level : Level) : List Char → Given → Except Usage (Given × Option Opt)
  | [], given => .ok (given, none)
  | c :: cs, given =>
      if c = 'h' then .error .help
      else
        match level.short? c with
        | none => .error .wrong
        | some opt =>
            if opt.hasValue then
              match cs with
              | [] => .ok (given, some opt)
              | '=' :: value => (given.add opt (String.ofList value)).map (·, none)
              | value => (given.add opt (String.ofList value)).map (·, none)
            else do
              let given ← given.add opt ""
              readLetters level cs given

/-- The name behind two dashes. Gives the option that waits for its value, if it is one. -/
def readName (level : Level) (cs : List Char) (given : Given) : Except Usage (Given × Option Opt) :=
  let (name, value) := splitEquals cs
  if name = "help" then .error (if value.isNone then .help else .wrong)
  else
    match level.long? name, value with
    | none, _ => .error .wrong
    | some opt, none =>
        if opt.hasValue then .ok (given, some opt) else (given.add opt "").map (·, none)
    | some opt, some value =>
        if opt.hasValue then (given.add opt value).map (·, none) else .error .wrong

/-- The operands of the words after two dashes. -/
def readOperands (level : Level) : List String → Given → Except Usage Given
  | [], given => .ok given
  | word :: rest, given => do
      let given ← given.addOperand level word
      readOperands level rest given

/-- The words at a level; `waiting` is the option whose value the next word is. Before the command, the
first operand ends the reading, and is given with the words after it. -/
def readWords (level : Level) :
    Option Opt → List String → Given → Except Usage (Given × Option (String × List String))
  | some _, [], _ => .error .wrong
  | some opt, word :: rest, given =>
      if isDashed word then .error .wrong
      else do
        let given ← given.add opt word
        readWords level none rest given
  | none, [], given => .ok (given, none)
  | none, word :: rest, given =>
      match word.toList with
      | ['-', '-'] => (readOperands level rest given).map (·, none)
      | '-' :: '-' :: cs => do
          let (given, waiting) ← readName level cs given
          readWords level waiting rest given
      | '-' :: c :: cs => do
          let (given, waiting) ← readLetters level (c :: cs) given
          readWords level waiting rest given
      | _ =>
          if level = .outer then .ok (given, some (word, rest))
          else do
            let given ← given.addOperand level word
            readWords level none rest given

/-! ## The command line -/

/-- The number that an option has, or else `default`. -/
def Given.number (given : Given) (opt : Opt) (default : UInt64) : UInt64 :=
  ((given.value? opt).bind Numeral.unsigned?).getD default

/-- The page that is asked for. -/
def Given.page (given : Given) : Page where
  start := given.number .start 0
  limit := given.number .limit 10
  noScoring := given.has .noScoring
  payload := given.has .payload
  json := given.has .json

/-- The command that is asked for, if its operand is there. -/
def Given.command? (given : Given) (verb : Verb) : Option Command :=
  match verb with
  | .index => given.operand.map Command.index
  | .delete => (given.operand.bind Numeral.unsigned?).map Command.delete
  | .search => given.operand.map fun text => Command.search text given.page
  | .query => given.operand.map fun query => Command.query query given.page
  | .request => given.operand.map fun request => Command.request request (given.has .json)
  | .status => some (Command.status (given.has .json))
  | .completions => (given.operand.bind shell?).map Command.completions

/-- Are there no two options that exclude each other? -/
def Given.consistent (given : Given) : Bool := !(given.has .quiet && given.has .verbose)

/-- How often more is asked to be reported, as far as it counts. -/
def Given.verbosity (given : Given) : Nat :=
  min 255 (given.options.countP fun o => o.1 = .verbose)

/-- The level at which an option that may stand anywhere counts: after the command if it is given
there. -/
def preferred (outer inner : Given) (opt : Opt) : Given := if inner.has opt then inner else outer

/-- The answer to words behind `help`: the name of a command or nothing, and nothing more. -/
def helpFor : List String → Usage
  | [] => .help
  | [name] => if name = "help" ∨ (Verb.ofLabel? name).isSome then .help else .wrong
  | _ => .wrong

/-- What the words of a command line ask for. -/
def Arguments.ofList (words : List String) : Except Usage Arguments := do
  match ← readWords .outer none words .nothing with
  | (_, none) => .error .wrong
  | (outer, some (name, rest)) =>
      if name = "help" then .error (helpFor rest)
      else
        match Verb.ofLabel? name with
        | none => .error .wrong
        | some verb => do
            let (inner, _) ← readWords (.inner verb) none rest .nothing
            match inner.command? verb with
            | none => .error .wrong
            | some command =>
                if outer.consistent && inner.consistent then
                  return {
                    dataDirectory := (preferred outer inner .dataDirectory).value? .dataDirectory
                    verbosity := (preferred outer inner .verbose).verbosity
                    quiet := (preferred outer inner .quiet).has .quiet
                    command := command }
                else .error .wrong

end CommandLine

end EventFinder
