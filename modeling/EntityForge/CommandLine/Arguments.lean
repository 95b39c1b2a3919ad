import EntityForge.Config.Basic
import EntityForge.Config.Value

/-!
# Arguments

What the words of a command line ask for. Options can stand before and after the name of the
command; `--` ends them.
-/

namespace EntityForge.CommandLine

/-- Paths that override those of the configuration. -/
structure Overrides where
  schema : Option String := none
  output : Option String := none
  registry : Option String := none
  deriving DecidableEq, Repr

/-- A configuration under overrides. -/
def Overrides.apply (overrides : Overrides) (config : Config) : Config :=
  { config with paths :=
    { config.paths with
      schema := overrides.schema.getD config.paths.schema
      outputFolder := overrides.output.getD config.paths.outputFolder
      registry := overrides.registry.getD config.paths.registry } }

/-- What is to be done. -/
inductive Task where
  | generate (entity : String) (overrides : Overrides)
  | generateAll (overrides : Overrides)
  | models (schema : Option String)
  deriving DecidableEq, Repr

/-- What a command line asks for. -/
structure Invocation where
  config : Option String
  verbose : Bool
  task : Task
  deriving DecidableEq, Repr

/-- What is wrong with a command line. -/
inductive Misuse where
  | unknownOption (word : String)
  | missingValue (option : String)
  | unwantedValue (option : String)
  | repeated (option : String)
  | missingCommand
  | unknownCommand (word : String)
  | missingEntity
  | unwantedWord (word : String)
  deriving DecidableEq, Repr

/-- Why a command line asks for nothing to be done. -/
inductive Halt where
  | version
  | help
  | misuse (misuse : Misuse)
  deriving DecidableEq, Repr

/-- The wording of a misuse. -/
def Misuse.message : Misuse → String
  | .unknownOption word => "unexpected argument '" ++ word ++ "' found"
  | .missingValue option => "a value is required for '--" ++ option ++ "' but none was supplied"
  | .unwantedValue option => "unexpected value for '--" ++ option ++ "' found"
  | .repeated option => "the argument '--" ++ option ++ "' cannot be used multiple times"
  | .missingCommand => "'nestgen' requires a subcommand but one was not provided"
  | .unknownCommand word => "unrecognized subcommand '" ++ word ++ "'"
  | .missingEntity => "the following required arguments were not provided: <ENTITY>"
  | .unwantedWord word => "unexpected argument '" ++ word ++ "' found"

/-- A place where words are read: before the command, or after it. -/
inductive Stage where
  | before
  /-- After a command with these options that have values, and so many words of its own. -/
  | after (options : List String) (words : Nat)

/-- The options with values that can stand somewhere. -/
def Stage.valued : Stage → List String
  | .before => ["config"]
  | .after options _ => "config" :: options

/-- What was read at one stage. -/
structure Gathered where
  values : List (String × String) := []
  verbose : Bool := false
  words : List String := []

namespace Gathered

/-- Takes up the value of an option. -/
def withValue (option value : String) (g : Gathered) : Except Halt Gathered :=
  if (g.values.lookup option).isSome then .error (.misuse (.repeated option))
  else if value.isEmpty then .error (.misuse (.missingValue option))
  else .ok { g with values := (option, value) :: g.values }

/-- Takes up the flag that asks for more messages. -/
def withVerbose (g : Gathered) : Except Halt Gathered :=
  if g.verbose then .error (.misuse (.repeated "verbose")) else .ok { g with verbose := true }

/-- Takes up a word that is no option. -/
def withWord (limit : Nat) (word : String) (g : Gathered) : Except Halt Gathered :=
  if g.words.length < limit then .ok { g with words := g.words ++ [word] }
  else .error (.misuse (.unwantedWord word))

/-- Takes up a flag by its long name. -/
def withFlag (stage : Stage) (name : String) (g : Gathered) : Except Halt Gathered :=
  match name, stage with
  | "verbose", _ => g.withVerbose
  | "help", _ => .error .help
  | "version", .before => .error .version
  | _, _ => .error (.misuse (.unknownOption ("--" ++ name)))

/-- Takes up flags by their letters. -/
def withLetters (stage : Stage) : List Char → Gathered → Except Halt Gathered
  | [], g => .ok g
  | 'v' :: rest, g => do withLetters stage rest (← g.withVerbose)
  | 'h' :: _, _ => .error .help
  | c :: _, _ =>
    match c, stage with
    | 'V', .before => .error .version
    | _, _ => .error (.misuse (.unknownOption ("-" ++ String.singleton c)))

end Gathered

/-- What a word is by its form. -/
inductive Form where
  | separator
  | long (name : String) (value : Option String)
  | letters (cs : List Char)
  | plain
  deriving DecidableEq, Repr

/-- The form of a word. A single dash is a plain word. -/
def Form.of (word : String) : Form :=
  match word.toList with
  | ['-', '-'] => .separator
  | '-' :: '-' :: rest =>
    let name := String.ofList (rest.takeWhile (· ≠ '='))
    match rest.dropWhile (· ≠ '=') with
    | _ :: value => .long name (some (String.ofList value))
    | [] => .long name none
  | '-' :: c :: rest => .letters (c :: rest)
  | _ => .plain

/-- Reads words at a stage. Before the command this ends at the first plain word; the words from
there on are left. -/
def gather (stage : Stage) (g : Gathered) : List String → Except Halt (Gathered × List String)
  | [] => .ok (g, [])
  | word :: rest =>
    match Form.of word with
    | .separator =>
      match stage with
      | .before => .error (.misuse .missingCommand)
      | .after _ limit => do
        let g ← rest.foldlM (fun g w => g.withWord limit w) g
        return (g, [])
    | .plain =>
      match stage with
      | .before => .ok (g, word :: rest)
      | .after _ limit => do gather stage (← g.withWord limit word) rest
    | .letters cs => do gather stage (← g.withLetters stage cs) rest
    | .long name (some value) =>
      if stage.valued.contains name then do gather stage (← g.withValue name value) rest
      else if name = "verbose" ∨ name = "help" ∨ name = "version" then
        .error (.misuse (.unwantedValue name))
      else .error (.misuse (.unknownOption word))
    | .long name none =>
      if stage.valued.contains name then
        match rest with
        | [] => .error (.misuse (.missingValue name))
        | value :: more =>
          match Form.of value with
          | .plain => do gather stage (← g.withValue name value) more
          | _ => .error (.misuse (.missingValue name))
      else do gather stage (← g.withFlag stage name) rest

/-- The options that override paths. -/
def pathOptions : List String :=
  ["schema", "output", "registry"]

/-- The overrides among what was read. -/
def Gathered.overrides (g : Gathered) : Overrides where
  schema := g.values.lookup "schema"
  output := g.values.lookup "output"
  registry := g.values.lookup "registry"

/-- Reads the words after the name of a command. -/
def readTask (name : String) (words : List String) : Except Halt (Gathered × Task) := do
  match name with
  | "generate" =>
    let (g, _) ← gather (.after pathOptions 1) {} words
    match g.words with
    | entity :: _ => return (g, .generate entity g.overrides)
    | [] => throw (.misuse .missingEntity)
  | "generate-all" =>
    let (g, _) ← gather (.after pathOptions 0) {} words
    return (g, .generateAll g.overrides)
  | "models" =>
    let (g, _) ← gather (.after ["schema"] 0) {} words
    return (g, .models (g.values.lookup "schema"))
  | "help" => throw .help
  | _ => throw (.misuse (.unknownCommand name))

/-- Reads a command line. An option given after the command overrides the same one before it. -/
def Invocation.read (words : List String) : Except Halt Invocation := do
  let (before, rest) ← gather .before {} words
  match rest with
  | [] => throw (.misuse .missingCommand)
  | name :: more =>
    let (after, task) ← readTask name more
    return {
      config := (after.values.lookup "config").or (before.values.lookup "config")
      verbose := before.verbose || after.verbose
      task := task }

end EntityForge.CommandLine
