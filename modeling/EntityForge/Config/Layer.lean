import EntityForge.Config.Basic
import EntityForge.Config.Variable

/-!
# Layers of a configuration

Sources are laid over each other, the most important one on top. A fault in what comes out is blamed
on the topmost source that says something in its place.
-/

namespace EntityForge.Config

/-- What a source says. -/
structure Layer where
  source : Source
  entries : Table

/-- The layer of the environment. -/
def Layer.ofEnvironment (environment : Environment) : Layer where
  source := .environment
  entries := environment.table

/-- Whether a layer says something at a path. -/
def Layer.reaches (path : List String) (layer : Layer) : Bool :=
  ((Value.table layer.entries).atPath? path).isSome

/-- What layers say together; the last one lies on top. -/
def merged (layers : List Layer) : Table :=
  layers.foldl (fun below layer => Table.over below layer.entries) []

/-- The source of what layers say at a path. -/
def sourceAt (layers : List Layer) (path : List String) : Source :=
  match layers.reverse.find? (·.reaches path) with
  | some layer => layer.source
  | none => .environment

/-- The configuration that layers make, over the defaults. -/
def ofLayers (layers : List Layer) : Except Fault Config :=
  (ofTable (merged layers)).mapError fun m => .mismatch m (sourceAt layers m.path)

end EntityForge.Config
