/-!
# Log lines

What a run reports to whoever watches it: a message at a level, with named details.
-/

namespace EntityForge.Log

/-- How much a message matters. -/
inductive Level where
  | error
  | warn
  | info
  | debug
  | trace
  deriving DecidableEq, Repr

/-- The number of a level; the more a message matters the smaller it is. -/
def Level.rank : Level → Nat
  | .error => 1
  | .warn => 2
  | .info => 3
  | .debug => 4
  | .trace => 5

/-- The label of a level. -/
def Level.label : Level → String
  | .error => "ERROR"
  | .warn => "WARN"
  | .info => "INFO"
  | .debug => "DEBUG"
  | .trace => "TRACE"

/-- The word for a level in a filter. -/
def Level.word : Level → String
  | .error => "error"
  | .warn => "warn"
  | .info => "info"
  | .debug => "debug"
  | .trace => "trace"

/-- All levels. -/
def Level.all : List Level :=
  [.error, .warn, .info, .debug, .trace]

/-- What a message is about. -/
inductive Area where
  /-- The files that a run reads and writes. -/
  | files
  /-- The fields of a model. -/
  | fields
  deriving DecidableEq, Repr

/-- The name of an area in a filter. -/
def Area.target : Area → String
  | .files => "nestgen::scaffold::pipeline"
  | .fields => "nestgen::scaffold::render"

/-- A message with its details. -/
structure Line where
  area : Area
  level : Level
  message : String
  details : List (String × String)
  deriving DecidableEq, Repr

/-- A line as it is printed. -/
def Line.text (line : Line) : String :=
  " ".intercalate
    (line.level.label :: line.message :: line.details.map fun d => d.1 ++ "=" ++ d.2)

/-- Whether a line has a detail. The message counts as one. -/
def Line.hasDetail (name : String) (line : Line) : Bool :=
  name = "message" || line.details.any fun d => d.1 = name

/-- The level that is printed when nothing else was asked for. -/
def defaultLevel (verbose : Bool) : Level :=
  if verbose then .debug else .info

end EntityForge.Log
