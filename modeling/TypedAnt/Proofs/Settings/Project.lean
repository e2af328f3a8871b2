import TypedAnt.Proofs.Settings.Layering
import TypedAnt.Proofs.Text.Utf8

/-!
# What a project file can do

A project file that cannot be read or that is no TOML document is passed over.  A file that is
not text at all, or that holds a number or a nesting beyond the limits, is not: then no
settings are loaded.
-/

namespace TypedAnt

def FileTree.single (path : Path) (octets : List UInt8) : FileTree :=
  ⟨fun _ => true, fun p => if p = path then .file octets else .missing⟩

namespace Settings

variable {files : FileTree} {limit level : Nat} {root : String} {octets : List UInt8}
  {options : Value} {cs : List Char} {entry : FileTree.Entry}

def Project.path (root : String) : Path :=
  (Path.ofText root).child Project.fileName

/-- The record that a project file is passed over. -/
def Project.notice (root : String) : Log.Record :=
  ⟨.warning, source, "read_project_config: ignoring unreadable " ++ (Project.path root).text⟩

/-!
# Reading the file
-/

theorem present_of_ne (hroot : root ≠ "") : Workspace.present (some root) = some root := by
  simp [Workspace.present, hroot]

theorem Project.read_of_fault (hroot : root ≠ "") {fault : FileTree.Fault}
    (hfound : files.read (Project.path root) = .error fault) :
    Project.read files limit (some root) = ⟨[], .error (.file fault)⟩ := by
  unfold Project.path at hfound
  unfold Project.read
  rw [present_of_ne hroot]
  dsimp only
  rw [hfound]

theorem Project.read_of_entry (hroot : root ≠ "")
    (hfound : files.read (Project.path root) = .ok entry) :
    Project.read files limit (some root) = Project.ofEntry limit (Project.path root) entry := by
  unfold Project.path at hfound
  unfold Project.read
  rw [present_of_ne hroot]
  dsimp only
  rw [hfound]
  rfl

/-!
# From the file to the settings
-/

theorem mergeAll_empty (s : Settings) (layers : List Value) :
    s.mergeAll limit level (.table [] :: layers) = s.mergeAll limit level layers := by
  have hcomplain (keys : List String) :
      Layer.complain limit ([] : Fields Value) keys = { value := .ok () } := by
    induction keys with
    | nil => rfl
    | cons key keys ih => exact ih
  have hmerge : s.merge limit level (.table []) = { value := .ok s } := by
    rw [merge, Layer.ofValue]
    dsimp only [Layer.lastText, Value.members]
    rw [hcomplain]
    rfl
  rw [mergeAll, hmerge]
  rfl

theorem load_of_entry (hroot : root ≠ "")
    (hfound : files.read (Project.path root) = .ok entry) :
    load files limit level (some root) options =
      (Project.ofEntry limit (Project.path root) entry).andThen fun fields =>
        Logged.mapError .value (mergeAll limit level {} [.table fields, options]) := by
  rw [load_eq, Project.read_of_entry hroot hfound]

theorem load_of_fault (hroot : root ≠ "") {fault : FileTree.Fault}
    (hfound : files.read (Project.path root) = .error fault) :
    load files limit level (some root) options = ⟨[], .error (.file fault)⟩ := by
  rw [load_eq, Project.read_of_fault hroot hfound]
  rfl

theorem load_of_missing (hroot : root ≠ "")
    (hfound : files.read (Project.path root) = .ok .missing) :
    load files limit level (some root) options =
      Logged.mapError .value (mergeAll limit level {} [options]) := by
  rw [load_of_entry hroot hfound]
  dsimp only [Project.ofEntry, Logged.andThen]
  rw [mergeAll_empty]
  rfl

theorem load_of_passOver (hroot : root ≠ "")
    (hfound : files.read (Project.path root) = .ok entry)
    (hentry : Project.ofEntry limit (Project.path root) entry =
      Project.passOver (Project.path root)) :
    load files limit level (some root) options =
      ⟨Project.notice root :: (mergeAll limit level {} [options]).log,
        (mergeAll limit level {} [options]).value.mapError .value⟩ := by
  rw [load_of_entry hroot hfound, hentry]
  dsimp only [Project.passOver, Logged.andThen]
  rw [mergeAll_empty]
  rfl

theorem ofEntry_of_text (path : Path) (cs : List Char) :
    Project.ofEntry limit path (.file (Utf8.encode cs)) = Project.ofText limit path cs := by
  rw [Project.ofEntry, Project.ofOctets, Utf8.decode_encode]

theorem load_of_not_text (hroot : root ≠ "")
    (hfound : files.read (Project.path root) = .ok (.file octets))
    (hoctets : ∀ cs, octets ≠ Utf8.encode cs) :
    ∃ fault, Utf8.decode octets = .error fault ∧
      load files limit level (some root) options = ⟨[], .error (.encoding fault)⟩ := by
  rcases Utf8.exists_decode_eq_error_iff.mpr hoctets with ⟨fault, hfault⟩
  refine ⟨fault, hfault, ?_⟩
  rw [load_of_entry hroot hfound, Project.ofEntry, Project.ofOctets, hfault]
  rfl

section Texts

variable (hroot : root ≠ "")
  (hfound : files.read (Project.path root) = .ok (.file (Utf8.encode cs)))

include hroot hfound

theorem load_of_malformed (hread : Toml.read limit (Project.feeds cs) = .error .malformed) :
    load files limit level (some root) options =
      ⟨Project.notice root :: (mergeAll limit level {} [options]).log,
        (mergeAll limit level {} [options]).value.mapError .value⟩ := by
  apply load_of_passOver hroot hfound
  rw [ofEntry_of_text, Project.ofText, hread]

theorem load_of_table {fields : Fields Value}
    (hread : Toml.read limit (Project.feeds cs) = .ok fields) :
    load files limit level (some root) options =
      Logged.mapError .value (mergeAll limit level {} [.table fields, options]) := by
  rw [load_of_entry hroot hfound, ofEntry_of_text, Project.ofText, hread]
  rfl

theorem load_of_numeral {fault : Numeral.Fault}
    (hread : Toml.read limit (Project.feeds cs) = .error (.numeral fault)) :
    load files limit level (some root) options = ⟨[], .error (.numeral fault)⟩ := by
  rw [load_of_entry hroot hfound, ofEntry_of_text, Project.ofText, hread]
  rfl

theorem load_of_deepNesting (hread : Toml.read limit (Project.feeds cs) = .error .deepNesting) :
    load files limit level (some root) options = ⟨[], .error .deepNesting⟩ := by
  rw [load_of_entry hroot hfound, ofEntry_of_text, Project.ofText, hread]
  rfl

end Texts

/-!
# Which files do no harm
-/

/-- What does not keep settings from being loaded, where the project file is looked for. -/
inductive Project.Harmless (limit level : Nat) : FileTree.Entry → Prop where
  | missing : Harmless limit level .missing
  | unreadable : Harmless limit level .unreadable
  | malformed {cs : List Char} : Toml.read limit (feeds cs) = .error .malformed →
      Harmless limit level (.file (Utf8.encode cs))
  | table {cs : List Char} {fields : Fields Value} : Toml.read limit (feeds cs) = .ok fields →
      Writable limit level (.table fields) → Harmless limit level (.file (Utf8.encode cs))

theorem mapError_eq_ok_iff {ε ε' α : Type} {f : ε → ε'} {a : Except ε α} {x : α} :
    a.mapError f = .ok x ↔ a = .ok x := by
  cases a <;> simp [Except.mapError]

theorem exists_mapError_eq_ok_iff {ε : Type} {f : Value.Obstacle → ε} (layers : List Value) :
    (∃ r, (mergeAll limit level {} layers).value.mapError f = .ok r) ↔
      ∀ layer ∈ layers, Writable limit level layer := by
  simp only [mapError_eq_ok_iff, mergeAll_eq_ok_iff]
  constructor
  · intro h
    rcases h with ⟨r, hall, -⟩
    exact hall
  · intro h
    exact ⟨_, h, rfl⟩

theorem exists_load_of_harmless (hroot : root ≠ "")
    (hfound : files.read (Project.path root) = .ok entry)
    (hentry : Project.Harmless limit level entry) (hoptions : Writable limit level options) :
    ∃ r, (load files limit level (some root) options).value = .ok r := by
  have halone : ∀ layer ∈ [options], Writable limit level layer := by
    simpa using hoptions
  cases hentry with
  | missing =>
      rw [load_of_missing hroot hfound]
      exact (exists_mapError_eq_ok_iff _).mpr halone
  | unreadable =>
      rw [load_of_passOver hroot hfound rfl]
      exact (exists_mapError_eq_ok_iff _).mpr halone
  | malformed hread =>
      rw [load_of_malformed hroot hfound hread]
      exact (exists_mapError_eq_ok_iff _).mpr halone
  | table hread hwritable =>
      rw [load_of_table hroot hfound hread]
      exact (exists_mapError_eq_ok_iff _).mpr (List.forall_mem_cons.mpr ⟨hwritable, halone⟩)

theorem writable_of_merged {r : Settings} {f : Value.Obstacle → Failure} (layers : List Value)
    (h : (mergeAll limit level {} (layers ++ [options])).value.mapError f = .ok r) :
    (∀ layer ∈ layers, Writable limit level layer) ∧ Writable limit level options := by
  have hall := (exists_mapError_eq_ok_iff (f := f) (layers ++ [options])).mp ⟨r, h⟩
  rw [List.forall_mem_append, List.forall_mem_singleton] at hall
  exact hall

theorem harmless_of_text {r : Settings} (hroot : root ≠ "")
    (hfound : files.read (Project.path root) = .ok (.file (Utf8.encode cs)))
    (hload : (load files limit level (some root) options).value = .ok r) :
    Project.Harmless limit level (.file (Utf8.encode cs)) ∧ Writable limit level options := by
  cases hread : Toml.read limit (Project.feeds cs) with
  | ok fields =>
      rw [load_of_table hroot hfound hread] at hload
      have hboth := writable_of_merged [.table fields] hload
      exact ⟨.table hread (hboth.1 _ List.mem_cons_self), hboth.2⟩
  | error fault =>
      cases fault with
      | malformed =>
          rw [load_of_malformed hroot hfound hread] at hload
          exact ⟨.malformed hread, (writable_of_merged [] hload).2⟩
      | numeral fault =>
          rw [load_of_numeral hroot hfound hread] at hload
          cases hload
      | deepNesting =>
          rw [load_of_deepNesting hroot hfound hread] at hload
          cases hload

theorem exists_text_of_load {r : Settings} (hroot : root ≠ "")
    (hfound : files.read (Project.path root) = .ok (.file octets))
    (hload : (load files limit level (some root) options).value = .ok r) :
    ∃ cs, octets = Utf8.encode cs := by
  by_contra hnot
  have hfails : ∃ fault, Utf8.decode octets = .error fault ∧
      load files limit level (some root) options = ⟨[], .error (.encoding fault)⟩ :=
    load_of_not_text hroot hfound fun cs hcs => hnot ⟨cs, hcs⟩
  rcases hfails with ⟨fault, -, hfault⟩
  rw [hfault] at hload
  cases hload

theorem harmless_of_load {r : Settings} (hroot : root ≠ "")
    (hload : (load files limit level (some root) options).value = .ok r) :
    ∃ entry, files.read (Project.path root) = .ok entry ∧ Project.Harmless limit level entry ∧
      Writable limit level options := by
  cases hfound : files.read (Project.path root) with
  | error fault =>
      rw [load_of_fault hroot hfound] at hload
      cases hload
  | ok entry =>
      refine ⟨entry, rfl, ?_⟩
      cases entry with
      | missing =>
          rw [load_of_missing hroot hfound] at hload
          exact ⟨.missing, (writable_of_merged [] hload).2⟩
      | unreadable =>
          rw [load_of_passOver hroot hfound rfl] at hload
          exact ⟨.unreadable, (writable_of_merged [] hload).2⟩
      | file octets =>
          rcases exists_text_of_load hroot hfound hload with ⟨cs, rfl⟩
          exact harmless_of_text hroot hfound hload

/-!
# The law of the project file
-/

/--
Settings are loaded exactly if there is no project file, or it cannot be read, or it is text and
this text is no TOML document or one that can be read and whose entries can be written out, and if
the options of the client can be.  A file that cannot be read and a text that is no TOML document
are passed over with a warning, and the options go over the defaults.  Octets that are no text
are not passed over, nor is a document with a number or a nesting beyond the limits, nor a path
that is too long: they are failures, and nothing is logged.
-/
theorem project_file_decides_load (limit level : Nat) (files : FileTree) (root : String)
    (options : Value) (hroot : root ≠ "") :
    let found := files.read (Project.path root)
    let loaded := load files limit level (some root) options
    let without := mergeAll limit level {} [options]
    ((∃ r, loaded.value = .ok r) ↔
      ∃ entry, found = .ok entry ∧ Project.Harmless limit level entry ∧
        Writable limit level options) ∧
      (found = .ok .missing → loaded = Logged.mapError .value without) ∧
      (found = .ok .unreadable →
        loaded = ⟨Project.notice root :: without.log, without.value.mapError .value⟩) ∧
      (∀ cs, found = .ok (.file (Utf8.encode cs)) →
        Toml.read limit (Project.feeds cs) = .error .malformed →
        loaded = ⟨Project.notice root :: without.log, without.value.mapError .value⟩) ∧
      (∀ cs fields, found = .ok (.file (Utf8.encode cs)) →
        Toml.read limit (Project.feeds cs) = .ok fields →
        loaded = Logged.mapError .value (mergeAll limit level {} [.table fields, options])) ∧
      (∀ cs fault, found = .ok (.file (Utf8.encode cs)) →
        Toml.read limit (Project.feeds cs) = .error (.numeral fault) →
        loaded = ⟨[], .error (.numeral fault)⟩) ∧
      (∀ cs, found = .ok (.file (Utf8.encode cs)) →
        Toml.read limit (Project.feeds cs) = .error .deepNesting →
        loaded = ⟨[], .error .deepNesting⟩) ∧
      (∀ octets, found = .ok (.file octets) → (∀ cs, octets ≠ Utf8.encode cs) →
        ∃ fault, Utf8.decode octets = .error fault ∧ loaded = ⟨[], .error (.encoding fault)⟩) ∧
      (∀ fault, found = .error fault → loaded = ⟨[], .error (.file fault)⟩) := by
  intro found loaded without
  refine ⟨⟨?_, ?_⟩, load_of_missing hroot, ?_, ?_, ?_, ?_, ?_, ?_, ?_⟩
  · intro h
    rcases h with ⟨r, hr⟩
    exact harmless_of_load hroot hr
  · intro h
    rcases h with ⟨entry, hfound, hentry, hoptions⟩
    exact exists_load_of_harmless hroot hfound hentry hoptions
  · intro hfound
    exact load_of_passOver hroot hfound rfl
  · intro cs hfound hread
    exact load_of_malformed hroot hfound hread
  · intro cs fields hfound hread
    exact load_of_table hroot hfound hread
  · intro cs fault hfound hread
    exact load_of_numeral hroot hfound hread
  · intro cs hfound hread
    exact load_of_deepNesting hroot hfound hread
  · intro octets hfound hoctets
    exact load_of_not_text hroot hfound hoctets
  · intro fault hfound
    exact load_of_fault hroot hfound

def bracketFile : FileTree :=
  FileTree.single ⟨"/", ["ws", Project.fileName]⟩ (Utf8.encode ['['])

theorem project_file_decides_load_bracket :
    Toml.read nestingLimit (Project.feeds ['[']) = .error .malformed ∧
      load bracketFile nestingLimit 30 (some "/ws") (.table [("logLevel", .text "info")]) =
        ⟨[Project.notice "/ws"], .ok ⟨some "info", true⟩⟩ := by
  have hread : Toml.read nestingLimit (Project.feeds ['[']) = .error .malformed := by
    rfl
  have hfound : bracketFile.read (Project.path "/ws") = .ok (.file (Utf8.encode ['['])) := by
    decide +kernel
  refine ⟨hread, ?_⟩
  have hload := (project_file_decides_load nestingLimit 30 bracketFile "/ws"
    (.table [("logLevel", .text "info")]) (by decide)).2.2.2.1 ['['] hfound hread
  rw [hload]
  rfl

theorem stray_octet_stops_load :
    load (FileTree.single ⟨"/", ["ws", Project.fileName]⟩ [0xFF]) nestingLimit 30 (some "/ws")
      .null = ⟨[], .error (.encoding ⟨0xFF, 0, 1, .badStart⟩)⟩ := by
  rfl

end Settings
end TypedAnt
