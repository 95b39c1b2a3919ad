import EntityForge.Settings

/-!
# Options of a run

Where the documents of a project are, and what is done to them.
-/

namespace EntityForge.Run

/-- A program of the user's own that is run before the artifacts of an entity are written: for each
kind once, with the kind and the slug of the entity as its last arguments. -/
structure Scaffolder where
  command : List String
  kinds : List String
  deriving DecidableEq, Repr

/-- All that a run needs besides its target. -/
structure Options where
  schema : String := "prisma/schema.prisma"
  outputFolder : String := "src/modules"
  registry : String := "src/shared/app.module.ts"
  controllerTemplate : Option String := some "templates/controller.template.txt"
  settings : Settings := {}
  importRoot : String := "../modules"
  scaffolder : Option Scaffolder := none
  deriving DecidableEq, Repr

end EntityForge.Run
