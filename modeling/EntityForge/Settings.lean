/-!
# Settings of the generated files

What a project says once about all of its generated files. Every setting has the value that a fresh
project expects.
-/

namespace EntityForge

/-- The class through which services reach the stored records. -/
structure Persistence where
  serviceClass : String := "PrismaService"
  serviceImport : String := "../../shared/services/prisma.service"
  accessor : String := "prisma"
  deriving DecidableEq, Repr

/-- How artifacts are written: the extension of their files, whether members keep the case of their
fields, and the persistence class. -/
structure Settings where
  extension : String := "ts"
  keepCase : Bool := false
  persistence : Persistence := {}
  deriving DecidableEq, Repr

end EntityForge
