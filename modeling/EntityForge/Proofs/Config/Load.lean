import EntityForge.CommandLine.Arguments
import EntityForge.Config.Load
import EntityForge.Proofs.Config.Document
import EntityForge.Proofs.Config.Layer
import EntityForge.Proofs.Config.Variable
import EntityForge.Proofs.Disk.Operation
import EntityForge.Run.Machine
import Mathlib

/-!
# Precedence of the sources

Each setting of a configuration is what the most important source says that says anything about it:
the environment, then the file that is asked for or else that of the project, then the file of the
user, and then the defaults. Options of the command line override their own paths and nothing else.
-/

namespace EntityForge.Config

open Run (Action Machine Surroundings)
open Disk (IsPath placeOf wayOf)

/-! ### Files -/

/-- Where a file is looked for first. -/
def Session.rooted (session : Session) (path : String) : String :=
  Path.join (Path.ofNames session.folder) path

/-- Whether the working folder of a session is one on a disk. -/
structure Session.Sited (session : Session) (disk : Disk) : Prop where
  named : ∀ name ∈ session.folder, Path.IsName name.toList
  stands : ∀ place, place <+: session.folder → disk.get? place = some .folder

/-- What the file at a path says to a session: the table of a document, or nothing if no file has
the path. A relative path must not lead to a file from a folder above the working folder either. -/
inductive Finds (session : Session) (disk : Disk) (path : String) : Option Table → Prop where
  | nothing :
    (∀ candidate ∈ session.candidates path, disk.isFile session.folder candidate = false) →
    Finds session disk path none
  | document {text entries} :
    IsPath (session.rooted path) →
    disk.readText session.folder path = .ok text →
    Toml.ofText? text = some entries →
    Finds session disk path (some entries)

/-- What the file says that is asked for, which has to be there, or else the file of the project. -/
def FindsChosen (session : Session) (disk : Disk) : Option String → Option Table → Prop
  | none, said => Finds session disk localName said
  | some path, said => (disk.find? session.folder path).isSome ∧ Finds session disk path said

namespace Session

/-- The layer of what the file at a path says, if it says anything. -/
def layers (session : Session) (path : String) (said : Option Table) : List Layer :=
  said.toList.map fun entries =>
    ⟨.file (Path.shownFrom session.folder (session.rooted path)), entries⟩

variable {session : Session} {disk : Disk} {path : String}

/-- A file is looked for below the working folder before it is looked for anywhere else. -/
lemma exists_candidates (session : Session) (path : String) :
    ∃ more, session.candidates path = session.rooted path :: more := by
  rw [candidates, rooted]
  split_ifs with absolute
  · exact ⟨[], by rw [Path.join, if_pos absolute]⟩
  · rw [List.range_succ, List.reverse_append, List.reverse_singleton, List.singleton_append,
      List.map_cons, List.take_length]
    exact ⟨_, rfl⟩

/-- What can be read under a path is read where it is looked for first. -/
lemma Sited.readText (sited : session.Sited disk) (isPath : IsPath (session.rooted path))
    {text : String} (read : disk.readText session.folder path = .ok text) :
    disk.readText session.folder (session.rooted path) = .ok text := by
  obtain ⟨reaches, found⟩ := Disk.readText_eq_ok.mp read
  cases relative : Path.isAbsolute path with
  | true =>
    have same : session.rooted path = path := by rw [rooted, Path.join, if_pos relative]
    rwa [same]
  | false =>
    -- The way from the root leads through the working folder, and from there as before.
    obtain ⟨place, way⟩ := Disk.placeOf_ofNames sited.named session.folder
    have start : Disk.startOf session.folder path = session.folder := by
      rw [Disk.startOf, relative]
      rfl
    refine Disk.readText_eq_ok.mpr ⟨⟨isPath, fun stop mem => ?_⟩, ?_⟩
    · obtain mem | mem := (Disk.mem_wayOf_join session.folder relative _).mp mem
      · exact sited.stands stop (way stop mem)
      · rw [place] at mem
        exact reaches.2 stop (by rwa [wayOf, start])
    · rw [rooted, Disk.placeOf_join session.folder relative, place, ← found, placeOf, start]

end Session

/-! ### Looking at a disk -/

/-- Whether an action comes to a result on a machine and leaves everything as it was, but for the
number of file operations. -/
def Learns {α : Type} (s : Surroundings) (m : Machine) (action : Action α) (a : α) : Prop :=
  ∃ n, Machine.perform s action m = (a, { m with operations := n })

section

variable {α β : Type} {s : Surroundings} {m : Machine} {session : Session} {path : String}

/-- An action that is finished has learned its result. -/
lemma learns_pure (a : α) : Learns s m (pure a) a :=
  ⟨m.operations, rfl⟩

/-- What is learned along two actions, of which the second may depend on the first. -/
lemma Learns.bind {action : Action α} {f : α → Action β} {a : α} {b : β}
    (first : Learns s m action a)
    (next : ∀ n, Learns s { m with operations := n } (f a) b) : Learns s m (action >>= f) b := by
  obtain ⟨n, first⟩ := first
  obtain ⟨n', next⟩ := next n
  refine ⟨n', ?_⟩
  rw [Machine.perform] at first ⊢
  rw [Action.perform_bind, first]
  exact next

/-- An attempt that succeeds goes on. -/
lemma Learns.attempt {x : Attempt α} {f : α → Attempt β} {a : α} {r : Except Fault β}
    (first : Learns s m x.run (.ok a))
    (next : ∀ n, Learns s { m with operations := n } (f a).run r) : Learns s m (x >>= f).run r :=
  Learns.bind first next

/-- An action is an attempt that succeeds. -/
lemma Learns.lift {action : Action α} {a : α} (h : Learns s m action a) :
    Learns s m (ExceptT.lift action : Attempt α).run (.ok a) :=
  Learns.bind h fun _ => learns_pure _

/-- A request that is only counted leaves everything else as it was. -/
lemma learns_request {r : Run.Request} {a : r.Reply} (answered : m.answer s r = (a, m.count)) :
    Learns s m (Action.request r) a :=
  ⟨m.operations + 1, answered⟩

section

variable (clear : ∀ n, s.fault n = none)

include clear

/-- Whether something is present is read off the disk. -/
lemma learns_isPresent (path : String) :
    Learns s m (Action.request (.isPresent path)) (m.disk.find? m.here path).isSome :=
  learns_request (by rw [Machine.answer, Machine.looking, clear])

/-- Whether a path names a file is read off the disk. -/
lemma learns_isFile (path : String) :
    Learns s m (Action.request (.isFile path)) (m.disk.isFile m.here path) :=
  learns_request (by rw [Machine.answer, Machine.looking, clear])

/-- A text is read off the disk. -/
lemma learns_readText (path : String) :
    Learns s m (Action.request (.readText path)) (m.disk.readText m.here path) :=
  learns_request (by rw [Machine.answer, Machine.reading, clear])

/-- The first of some paths is taken if it names a file. -/
lemma learns_firstFile_cons {paths : List String} (found : m.disk.isFile m.here path) :
    Learns s m (firstFile (path :: paths)) (some path) := by
  refine (learns_isFile clear path).bind fun n => ?_
  rw [found]
  exact learns_pure _

/-- No path is taken if none of them names a file. -/
lemma learns_firstFile_none {paths : List String}
    (none_ : ∀ path ∈ paths, m.disk.isFile m.here path = false) :
    Learns s m (firstFile paths) none := by
  induction paths generalizing m with
  | nil => exact learns_pure _
  | cons path paths ih =>
    obtain ⟨first, others⟩ := List.forall_mem_cons.mp none_
    refine (learns_isFile clear path).bind fun n => ?_
    rw [first]
    exact ih others

variable (here : m.here = session.folder) (sited : session.Sited m.disk) {said : Option Table}

include here sited

/-- A file is read as the layer of what it says. -/
lemma learns_readFile (finds : Finds session m.disk path said) :
    Learns s m (readFile session path).run (.ok (session.layers path said)) := by
  cases finds with
  | nothing none_ =>
    rw [← here] at none_
    exact Learns.attempt (learns_firstFile_none clear none_).lift fun n => learns_pure _
  | @document text entries isPath read made =>
    have rooted := sited.readText isPath read
    rw [← here] at rooted
    have found : m.disk.isFile m.here (session.rooted path) := by
      rw [Disk.isFile, Disk.find?_eq_some.mpr (Disk.readText_eq_ok.mp rooted)]
    obtain ⟨more, candidates⟩ := session.exists_candidates path
    have first : Learns s m (firstFile (session.rooted path :: more))
        (some (session.rooted path)) := learns_firstFile_cons clear found
    rw [← candidates] at first
    refine Learns.attempt first.lift fun n => ?_
    refine Learns.attempt (learns_readText clear _).lift fun n' => ?_
    simp only [rooted, made]
    exact learns_pure _

omit clear here sited in
/-- What is read under a path is there. -/
lemma Finds.isSome {disk : Disk} {entries : Table}
    (finds : Finds session disk path (some entries)) :
    (disk.find? session.folder path).isSome := by
  cases finds with
  | document isPath read made =>
    rw [Disk.find?_eq_some.mpr (Disk.readText_eq_ok.mp read)]
    rfl

/-- A file that need not be there is read as the layer of what it says. -/
lemma learns_readPresent (finds : Finds session m.disk path said) :
    Learns s m (readPresent session path).run (.ok (session.layers path said)) := by
  refine Learns.attempt (learns_isPresent clear path).lift fun n => ?_
  cases present : (m.disk.find? m.here path).isSome with
  | true => exact learns_readFile (m := { m with operations := n }) clear here sited finds
  | false =>
    cases said with
    | none => exact learns_pure _
    | some entries =>
      rw [here, finds.isSome] at present
      cases present

/-- The file that is asked for is read, or else that of the project. -/
lemma learns_readChosen {explicit : Option String}
    (finds : FindsChosen session m.disk explicit said) :
    Learns s m (readChosen session explicit).run
      (.ok (session.layers (explicit.getD localName) said)) := by
  cases explicit with
  | none => exact learns_readPresent clear here sited finds
  | some path =>
    refine Learns.attempt (learns_isPresent clear path).lift fun n => ?_
    have present := finds.1
    rw [← here] at present
    rw [present]
    exact learns_readFile (m := { m with operations := n }) clear here sited finds.2

/-- The configuration comes from the file of the user, the file that was chosen and the environment,
each of them before the next. -/
lemma learns_load {explicit : Option String} {user chosen : Option Table}
    (own : Finds session m.disk session.userPath user)
    (asked : FindsChosen session m.disk explicit chosen) :
    Learns s m (load session explicit).run (ofLayers (session.layers session.userPath user ++
      session.layers (explicit.getD localName) chosen ++
      [Layer.ofEnvironment session.environment])) := by
  refine Learns.attempt (learns_readPresent clear here sited own).lift fun n => ?_
  refine Learns.attempt (learns_readChosen (m := { m with operations := n }) clear here sited asked)
    fun n' => ?_
  exact learns_pure _

/-- The configuration of one file comes from that file and the environment. -/
lemma learns_loadFrom (finds : Finds session m.disk path said) :
    Learns s m (loadFrom session path).run
      (ofLayers (session.layers path said ++ [Layer.ofEnvironment session.environment])) := by
  refine Learns.attempt (learns_readFile clear here sited finds) fun n => ?_
  exact learns_pure _

end

end

/-! ### The configuration of a process -/

/-- The option of the command line that overrides a setting. -/
def Setting.option? : Setting → Option String
  | schema => some "schema"
  | outputFolder => some "output"
  | registry => some "registry"
  | _ => none

/-- What the options that were read say about a setting. -/
def overriding? (given : CommandLine.Gathered) (setting : Setting) : Option Datum :=
  setting.option?.bind fun option => (given.values.lookup option).map .text

/-- An option overrides its own setting. -/
lemma datum?_apply (given : CommandLine.Gathered) (config : Config) (setting : Setting) :
    (given.overrides.apply config).datum? setting =
      (overriding? given setting).or (config.datum? setting) := by
  have either (x : Option String) (s : String) :
      some (Datum.text (x.getD s)) = (x.map Datum.text).or (some (.text s)) := by
    cases x <;> rfl
  cases setting with
  | schema | outputFolder | registry => exact either _ _
  | _ => rfl

section

variable {session : Session} {disk : Disk} {said : Option Table}

/-- A document is tidy. -/
lemma Finds.each {path : String} (finds : Finds session disk path said) :
    ∀ entries ∈ said.toList, Each Value.Tidy entries := by
  cases finds with
  | nothing => nofun
  | document _ _ made =>
    intro entries mem
    rw [List.mem_singleton.mp mem]
    exact Toml.each_ofText? made

/-- What a chosen file says is tidy. -/
lemma FindsChosen.each {explicit : Option String} (finds : FindsChosen session disk explicit said) :
    ∀ entries ∈ said.toList, Each Value.Tidy entries := by
  cases explicit with
  | none => exact Finds.each finds
  | some path => exact finds.2.each

end

/-- The configuration of a process is the one that holds, for each setting, what the first of its
sources to say anything about it says, and the default where none of them does: the environment,
the file that is asked for or else that of the project, and the file of the user. A configuration
from a single file has only that file and the environment. An option of the command line overrides
its own path and nothing else. -/
theorem load_precedence {session : Session} {s : Surroundings} {m : Machine}
    (clear : ∀ n, s.fault n = none) (here : m.here = session.folder)
    (sited : session.Sited m.disk) :
    (∀ explicit user chosen, Finds session m.disk session.userPath user →
      FindsChosen session m.disk explicit chosen →
      (∀ entries ∈ session.environment.table :: (chosen.toList ++ user.toList), entries.Typed) →
      ∃ config, (Machine.perform s (load session explicit).run m).1 = .ok config ∧
        ∀ other : Config,
          other.Follows (session.environment.table :: (chosen.toList ++ user.toList)) ↔
            other = config) ∧
    (∀ path alone, Finds session m.disk path alone →
      (∀ entries ∈ session.environment.table :: alone.toList, entries.Typed) →
      ∃ config, (Machine.perform s (loadFrom session path).run m).1 = .ok config ∧
        ∀ other : Config,
          other.Follows (session.environment.table :: alone.toList) ↔ other = config) ∧
    ∀ (given : CommandLine.Gathered) config setting,
      (given.overrides.apply config).datum? setting =
        (overriding? given setting).or (config.datum? setting) := by
  refine ⟨fun explicit user chosen own asked typed => ?_, fun path alone finds typed => ?_,
    datum?_apply⟩
  · have tidy : ∀ entries ∈ session.environment.table :: (chosen.toList ++ user.toList),
        Each Value.Tidy entries :=
      List.forall_mem_cons.mpr ⟨session.environment.each_table,
        List.forall_mem_append.mpr ⟨asked.each, own.each⟩⟩
    have order : (session.layers session.userPath user ++
        session.layers (explicit.getD localName) chosen ++
        [Layer.ofEnvironment session.environment]).reverse.map (·.entries) =
          session.environment.table :: (chosen.toList ++ user.toList) := by
      cases user <;> cases chosen <;> rfl
    obtain ⟨config, made, one⟩ := ofLayers_eq order typed tidy
    obtain ⟨n, loaded⟩ := learns_load clear here sited own asked
    exact ⟨config, by rw [loaded, made], one⟩
  · have tidy : ∀ entries ∈ session.environment.table :: alone.toList, Each Value.Tidy entries :=
      List.forall_mem_cons.mpr ⟨session.environment.each_table, finds.each⟩
    have order : (session.layers path alone ++
        [Layer.ofEnvironment session.environment]).reverse.map (·.entries) =
          session.environment.table :: alone.toList := by
      cases alone <;> rfl
    obtain ⟨config, made, one⟩ := ofLayers_eq order typed tidy
    obtain ⟨n, loaded⟩ := learns_loadFrom clear here sited finds
    exact ⟨config, by rw [loaded, made], one⟩

/-- The file of a user. -/
def userText : String :=
  "[paths]\noutput_dir = \"lib\"\nregistry = \"r\"\n[external]\nkinds = [\"a\"]\n"

/-- The file of a project. -/
def localText : String :=
  "[paths]\nschema = \"b\"\noutput_dir = \"out\"\n"

/-- A file that is only read where it is asked for. -/
def askedText : String :=
  "[paths]\nschema = \"c\"\noutput_dir = \"gen\"\n"

/-- A disk with these files, each in its folder. -/
def configured : Disk :=
  ⟨[(["w"], .folder), (["w", "nestgen.toml"], .file (.text localText)),
    (["w", "ci.toml"], .file (.text askedText)), (["u"], .folder), (["u", ".config"], .folder),
    (["u", ".config", "nestgen"], .folder),
    (["u", ".config", "nestgen", "config.toml"], .file (.text userText))]⟩

/-- A process in the project, with a variable for the schema. -/
def process : Session :=
  ⟨[("HOME", "/u"), ("NESTGEN_PATHS__SCHEMA", "a")], ["w"], none⟩

/-- Surroundings in which all goes well and nothing is launched. -/
def still : Surroundings :=
  ⟨fun _ _ disk => ⟨.ok (), "", "", disk⟩, fun _ => none, fun _ _ => false, fun _ => 0⟩

/-- A variable says more than the file `ci.toml` that was chosen, and that file more than the one of the
user. The file of the project alone leaves the one of the user aside. -/
theorem load_precedence_ci :
    (Machine.perform still (load process (some "ci.toml")).run ⟨configured, ["w"], 0, [], []⟩).1 =
      .ok { paths := { schema := "a", outputFolder := "gen", registry := "r" },
            external := { kinds := ["a"] } } ∧
    (Machine.perform still (loadFrom process "nestgen.toml").run ⟨configured, ["w"], 0, [], []⟩).1 =
      .ok { paths := { schema := "a", outputFolder := "out" } } := by
  have environment : process.environment.table = [("paths", .table [("schema", .text "a")])] := by
    have home : Variable.keys? "HOME" = none := by decide +kernel
    have schema : Variable.keys? "NESTGEN_PATHS__SCHEMA" = some ["paths", "schema"] := by
      decide +kernel
    have value : Variable.read "a" = .text "a" := by cbv
    simp only [Environment.table, process, List.foldl_cons, List.foldl_nil, home, schema, value]
    rfl
  have sited : process.Sited configured :=
    ⟨fun name mem => by
      rw [List.mem_singleton.mp mem]
      exact ⟨rfl, by decide +kernel, by decide +kernel⟩, fun place onWay => by
      obtain rfl | rfl : place = [] ∨ place = ["w"] := by
        simpa [process] using (List.mem_inits place _).mpr onWay
      · rfl
      · rfl⟩
  have reads {path text : String}
      (read : (configured.readText process.folder path).toOption = some text) :
      configured.readText process.folder path = .ok text := by
    cases found : configured.readText process.folder path with
    | ok other => rw [found] at read; exact congrArg _ (Option.some.inj read)
    | error => rw [found] at read; cases read
  have user : Finds process configured process.userPath
      (some [("paths", .table [("output_dir", .text "lib"), ("registry", .text "r")]),
        ("external", .table [("kinds", .list [.text "a"])])]) :=
    .document (by decide +kernel) (@reads _ userText (by decide +kernel)) (by cbv)
  have asked : FindsChosen process configured (some "ci.toml")
      (some [("paths", .table [("schema", .text "c"), ("output_dir", .text "gen")])]) :=
    ⟨by decide +kernel,
      .document (by decide +kernel) (@reads _ askedText (by decide +kernel)) (by cbv)⟩
  have own : Finds process configured "nestgen.toml"
      (some [("paths", .table [("schema", .text "b"), ("output_dir", .text "out")])]) :=
    .document (by decide +kernel) (@reads _ localText (by decide +kernel)) (by cbv)
  obtain ⟨loads, alone, -⟩ := @load_precedence process still ⟨configured, ["w"], 0, [], []⟩
    (fun _ => rfl) rfl sited
  constructor
  · obtain ⟨config, loaded, one⟩ := loads _ _ _ user asked (by
      rw [environment]
      simp only [Option.toList, List.singleton_append, List.forall_mem_cons]
      refine ⟨?_, ?_, ?_, List.forall_mem_nil _⟩ <;> rintro ⟨⟩ <;> rfl)
    rw [loaded, ← (one { paths := { schema := "a", outputFolder := "gen", registry := "r" },
                         external := { kinds := ["a"] } }).mp fun setting => ?_]
    rw [environment]
    cases setting <;> decide
  · obtain ⟨config, loaded, one⟩ := alone _ _ own (by
      rw [environment]
      simp only [Option.toList, List.forall_mem_cons]
      refine ⟨?_, ?_, List.forall_mem_nil _⟩ <;> rintro ⟨⟩ <;> rfl)
    rw [loaded, ← (one { paths := { schema := "a", outputFolder := "out" } }).mp fun setting => ?_]
    rw [environment]
    cases setting <;> decide

end EntityForge.Config
