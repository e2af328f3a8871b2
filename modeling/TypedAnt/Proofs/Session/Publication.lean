import TypedAnt.Proofs.Session.Interleaving

/-!
# Published diagnostics belong to the text of the moment

Whatever the order in which tasks run and jobs are finished, a list of diagnostics that an
analysis sends is that of the text the store holds when it is sent.  When all tasks have
ended, the last list sent for an open document is that of its text, and the last list
sent for a closed one is empty.

The first part rests on generations: while a task works on a snapshot, the store may get
other snapshots of the document, but none of the same generation.  The second part rests
on the tasks: as long as the list for the text of the moment has not been sent, there is
a task that is going to send it.
-/

namespace TypedAnt

namespace Store

def Call.text? : Call → Option String
  | put _ text => some text
  | _ => none

end Store

/-!
# What one part of a task does
-/

namespace Session

def diagnosticsOf? (limit : Nat) (units : Units) (text uri : String) :
    Option (List Diagnostic) :=
  match (Report.ofText limit units false text uri).value with
  | .ok report => some report.diagnostics
  | .error _ => none

/-- The job that a task takes on is an analysis of a text of the store, or a completion. -/
def TakenFrom (s : Session) (job : Job) : Prop :=
  (∃ uri snap, s.store.snapshot? uri = some snap ∧ job = .analysis snap s.units) ∨
    ∃ snap units includeBuiltins position,
      job = .completion snap units includeBuiltins position

/--
All that a part of a task can do: the store after it, the lists it sends, and where the
task stands next.
-/
inductive Part (limit : Nat) (s : Session) :
    Stage → Store → List (String × List Diagnostic) → Option Stage → Prop where
  | puts (r : Request) (uri text : String) :
      r.change? = some (.put uri text) →
      Part limit s (.arrived r) (s.store.put uri text) [] (some (.stored uri))
  | closes (r : Request) (uri : String) :
      r.change? = some (.close uri) →
      Part limit s (.arrived r) (s.store.close uri) [(uri, [])] none
  | clears (r : Request) :
      r.change? = some .clear →
      Part limit s (.arrived r) s.store.clear [] none
  | begins (r : Request) (job : Option Job) :
      r.change? = none →
      (∀ j, job = some j → s.TakenFrom j) →
      Part limit s (.arrived r) s.store [] (job.map .working)
  | reads (uri : String) :
      Part limit s (.stored uri) s.store [] ((s.analysisOf uri).map .working)
  | ends (job : Job) :
      Part limit s (.working job) s.store (s.finish limit job).published none

theorem takenFrom_of_analysisOf {s : Session} {uri : String} {job : Job}
    (h : s.analysisOf uri = some job) : s.TakenFrom job := by
  unfold analysisOf at h
  cases hsnap : s.store.snapshot? uri with
  | none => simp [hsnap] at h
  | some snap =>
      simp only [hsnap, Option.map_some, Option.some.injEq] at h
      exact Or.inl ⟨uri, snap, hsnap, h.symm⟩

theorem configure_keeps (limit : Nat) (s : Session) (value : Value) :
    (s.configure limit value).1.store = s.store ∧
      (s.configure limit value).1.units = s.units ∧
      (s.configure limit value).2.published = [] := by
  unfold configure
  dsimp only
  split
  · split <;> exact ⟨rfl, rfl, rfl⟩
  · split
    · split <;> exact ⟨rfl, rfl, rfl⟩
    · exact ⟨rfl, rfl, rfl⟩

theorem change?_of_text? {r : Request} {uri text : String} (h : r.text? = some (uri, text)) :
    r.change? = some (.put uri text) := by
  cases r with
  | openDocument u t => simp only [Request.change?, h, Option.map_some]
  | change u texts => simp only [Request.change?, h, Option.map_some]
  | _ => simp [Request.text?] at h

theorem part_of_start (files : FileTree) (limit : Nat) (s : Session) {r : Request}
    (hkeep : r.keepsUnits = true) (htext : r.text? = none) :
    (s.start files limit r).1.units = s.units ∧
      Part limit s (.arrived r) (s.start files limit r).1.store
        (s.start files limit r).2.1.published ((s.start files limit r).2.2.map .working) := by
  cases r with
  | connect _ _ _ => simp [Request.keepsUnits] at hkeep
  | configure value =>
      have hkeeps := configure_keeps limit s value
      refine ⟨hkeeps.2.1, ?_⟩
      have hbegins : Part limit s (.arrived (.configure value)) s.store []
          ((none : Option Job).map .working) :=
        Part.begins _ _ rfl (by intro j hj; cases hj)
      simpa only [start, hkeeps.1, hkeeps.2.2] using hbegins
  | openDocument uri text => simp [Request.text?] at htext
  | change uri texts =>
      cases hlast : texts.getLast? with
      | some text => simp [Request.text?, hlast] at htext
      | none =>
          have hchange : (Request.change uri texts).change? = none := by
            simp [Request.change?, Request.text?, hlast]
          have hbegins : Part limit s (.arrived (.change uri texts)) s.store []
              ((none : Option Job).map .working) :=
            Part.begins _ _ hchange (by intro j hj; cases hj)
          simpa only [start, hlast, true_and] using hbegins
  | close uri => exact ⟨rfl, Part.closes _ _ rfl⟩
  | analyze uri => exact ⟨rfl, Part.begins _ _ rfl fun _ hj => takenFrom_of_analysisOf hj⟩
  | complete uri position =>
      refine ⟨rfl, Part.begins _ _ rfl ?_⟩
      intro j hj
      cases hsnap : s.store.snapshot? uri with
      | none => simp [start, hsnap] at hj
      | some snap =>
          simp only [start, hsnap, Option.map_some, Option.some.injEq] at hj
          exact Or.inr ⟨snap, s.units, s.settings.includeBuiltins, position, hj.symm⟩
  | shutdown => exact ⟨rfl, Part.clears _ rfl⟩

theorem advance_part (files : FileTree) (limit : Nat) (s : Session) (stage : Stage)
    (hkeep : ∀ r, stage = .arrived r → r.keepsUnits = true) :
    (s.advance files limit stage).1.units = s.units ∧
      Part limit s stage (s.advance files limit stage).1.store
        (s.advance files limit stage).2.1.published (s.advance files limit stage).2.2 := by
  cases stage with
  | arrived r =>
      cases htext : r.text? with
      | none =>
          simpa only [advance, htext] using part_of_start files limit s (hkeep r rfl) htext
      | some stored =>
          rcases stored with ⟨uri, text⟩
          have hputs : Part limit s (.arrived r) (s.store.put uri text) [] (some (.stored uri)) :=
            Part.puts _ _ _ (change?_of_text? htext)
          simpa only [advance, htext, call, Store.run, true_and] using hputs
  | stored uri => exact ⟨rfl, Part.reads uri⟩
  | working job => exact ⟨rfl, Part.ends job⟩

theorem published_finish_analysis (limit : Nat) (s : Session) (snap : Snapshot) (units : Units) :
    (s.finish limit (.analysis snap units)).published =
      if s.store.isCurrent snap.uri snap.generation then
        (diagnosticsOf? limit units snap.text snap.uri).toList.map (Prod.mk snap.uri)
      else [] := by
  unfold finish diagnosticsOf?
  dsimp only
  cases hvalue : (Report.ofText limit units false snap.text snap.uri).value with
  | error failure =>
      simp [failed]
  | ok report =>
      by_cases hcurrent : s.store.isCurrent snap.uri snap.generation = true
      · simp [hcurrent, publish]
      · simp [hcurrent]

theorem published_finish_completion (limit : Nat) (s : Session) (snap : Snapshot) (units : Units)
    (includeBuiltins : Bool) (position : Position) :
    (s.finish limit (.completion snap units includeBuiltins position)).published = [] := by
  unfold finish
  dsimp only
  split <;> rfl

end Session

/-!
# What one move does to a server
-/

namespace Server

open Session

theorem lastChange_of_changes {v w : Server} {c : Store.Call} (h : w.changes = c :: v.changes)
    (uri : String) :
    w.lastChange uri = if c.touches uri = true then some c else v.lastChange uri := by
  unfold lastChange
  rw [h, List.find?_cons]
  cases c.touches uri <;> rfl

theorem lastEdit_of_changes {v w : Server} {c : Store.Call} (h : w.changes = c :: v.changes)
    (uri : String) :
    w.lastEdit uri = if c.edits uri = true then some c else v.lastEdit uri := by
  unfold lastEdit
  rw [h, List.find?_cons]
  cases c.edits uri <;> rfl

theorem lastPublished_of_published {v w : Server} {name : String} {ds : List Diagnostic}
    (h : w.published = (name, ds) :: v.published) (uri : String) :
    w.lastPublished uri = if name = uri then some ds else v.lastPublished uri := by
  unfold lastPublished
  rw [h, List.find?_cons]
  by_cases hname : name = uri
  · simp [hname]
  · have hbeq : (name == uri) = false := by
      simpa using hname
    simp [hbeq, hname]

structure Turn (limit : Nat) (v : Server) (i : Nat) (stage : Stage)
    (sent : List (String × List Diagnostic)) (next : Option Stage) (w : Server) : Prop where
  task : v.At i stage
  part : Part limit v.session stage w.session.store sent next
  units_eq : w.session.units = v.session.units
  tasks_eq : w.tasks = v.tasks.set i next
  changes_eq : w.changes = (changeOf stage).toList ++ v.changes
  published_eq : w.published = sent.reverse ++ v.published

theorem turn_of_resume (files : FileTree) (limit : Nat) {v : Server} {i : Nat} {stage : Stage}
    (htask : v.At i stage) (hkeep : ∀ r, stage = .arrived r → r.keepsUnits = true) :
    ∃ sent next, Turn limit v i stage sent next (v.step files limit (.resume i)) := by
  have hpart := advance_part files limit v.session stage hkeep
  have hstep : v.step files limit (.resume i) =
      { session := (v.session.advance files limit stage).1
        tasks := v.tasks.set i (v.session.advance files limit stage).2.2
        changes := (changeOf stage).toList ++ v.changes
        published := (v.session.advance files limit stage).2.1.published.reverse ++ v.published } := by
    unfold At at htask
    simp only [step, htask]
  rw [hstep]
  exact ⟨_, _, htask, hpart.2, hpart.1, rfl, rfl, rfl⟩

theorem step_resume_of_ended (files : FileTree) (limit : Nat) {v : Server} {i : Nat}
    (htask : ∀ stage, ¬ v.At i stage) : v.step files limit (.resume i) = v := by
  cases h : v.tasks[i]? with
  | none => simp only [step, h]
  | some task =>
      cases task with
      | none => simp only [step, h]
      | some stage => exact absurd h (htask stage)

theorem at_of_set {v w : Server} {i j : Nat} {next : Option Stage} {stage : Stage}
    (htasks : w.tasks = v.tasks.set i next) (h : w.At j stage) :
    (j = i ∧ next = some stage) ∨ v.At j stage := by
  unfold At at h
  rw [htasks] at h
  by_cases hij : i = j
  · have hlt : i < v.tasks.length := by
      have hlen := (List.getElem?_eq_some_iff.mp h).1
      rw [List.length_set] at hlen
      exact hij ▸ hlen
    rw [← hij, List.getElem?_set_self hlt] at h
    simp only [Option.some.injEq] at h
    exact Or.inl ⟨hij.symm, h⟩
  · rw [List.getElem?_set_ne hij] at h
    exact Or.inr h

theorem at_set_of_ne {v w : Server} {i j : Nat} {next : Option Stage} {old stage : Stage}
    (htasks : w.tasks = v.tasks.set i next) (hi : v.At i old) (hj : v.At j stage)
    (hne : old ≠ stage) : w.At j stage := by
  have hij : i ≠ j := by
    intro h
    have hsame : some (some old) = some (some stage) := by
      rw [← hi, ← hj, h]
    simp only [Option.some.injEq] at hsame
    exact hne hsame
  unfold At
  rw [htasks, List.getElem?_set_ne hij]
  exact hj

theorem at_set_self {v w : Server} {i : Nat} {old stage : Stage}
    (htasks : w.tasks = v.tasks.set i (some stage)) (hi : v.At i old) : w.At i stage := by
  have hlt : i < v.tasks.length := (List.getElem?_eq_some_iff.mp hi).1
  unfold At
  rw [htasks, List.getElem?_set_self hlt]

/-!
# What holds in every run

A server is coherent as long as its store, its tasks and its records fit together.
-/

structure Coherent (units : Units) (v : Server) : Prop where
  units_eq : v.session.units = units
  arrivals : ∀ i r, v.At i (.arrived r) → r.keepsUnits = true
  /-- The store holds the text of the last change, if that left one. -/
  texts : ∀ uri, (v.session.store.snapshot? uri).map Snapshot.text =
    (v.lastChange uri).bind Store.Call.text?
  stamped : ∀ uri snap, v.session.store.snapshot? uri = some snap →
    snap.uri = uri ∧ snap.generation ≤ v.session.store.issued
  /-- No other text of the document has the generation of a text that is worked on. -/
  jobs : ∀ i snap u, v.At i (.working (.analysis snap u)) →
    u = units ∧ snap.generation ≤ v.session.store.issued ∧
      ∀ held, v.session.store.snapshot? snap.uri = some held →
        held.generation = snap.generation → held = snap
  closed : ∀ uri, v.lastEdit uri = some (.close uri) → v.lastPublished uri = some []

theorem coherent_fresh (s : Session) : Coherent s.units (fresh s) where
  units_eq := rfl
  arrivals := by
    intro i r h
    simp [At, fresh] at h
  texts := by
    intro uri
    rfl
  stamped := by
    intro uri snap h
    cases h
  jobs := by
    intro i snap u h
    simp [At, fresh] at h
  closed := by
    intro uri h
    cases h

theorem coherent_arrive (files : FileTree) (limit : Nat) {units : Units} {v : Server} {r : Request}
    (hv : Coherent units v) (hkeep : r.keepsUnits = true) :
    Coherent units (v.step files limit (.arrive r)) := by
  have hold : ∀ i stage, (v.step files limit (.arrive r)).At i stage →
      v.At i stage ∨ stage = .arrived r := by
    intro i stage h
    change (v.tasks ++ [some (.arrived r)])[i]? = some (some stage) at h
    rw [List.getElem?_append] at h
    split at h
    · exact Or.inl h
    · have hmem := List.mem_of_getElem? h
      simp only [List.mem_singleton, Option.some.injEq] at hmem
      exact Or.inr hmem
  constructor
  · exact hv.units_eq
  · intro i r' h
    rcases hold i _ h with hi | hi
    · exact hv.arrivals i r' hi
    · cases hi
      exact hkeep
  · exact hv.texts
  · exact hv.stamped
  · intro i snap u h
    rcases hold i _ h with hi | hi
    · exact hv.jobs i snap u hi
    · cases hi
  · exact hv.closed

theorem coherent_cancel (files : FileTree) (limit : Nat) {units : Units} {v : Server} {i : Nat}
    (hv : Coherent units v) : Coherent units (v.step files limit (.cancel i)) := by
  have hold : ∀ j stage, (v.step files limit (.cancel i)).At j stage → v.At j stage := by
    intro j stage h
    rcases at_of_set rfl h with ⟨_, hnone⟩ | hj
    · cases hnone
    · exact hj
  constructor
  · exact hv.units_eq
  · intro j r h
    exact hv.arrivals j r (hold j _ h)
  · exact hv.texts
  · exact hv.stamped
  · intro j snap u h
    exact hv.jobs j snap u (hold j _ h)
  · exact hv.closed

/-- If a document is closed and not put again, the changes since leave it without a text. -/
theorem text?_of_closed {uri : String} {changes : List Store.Call}
    (h : changes.find? (Store.Call.edits uri) = some (.close uri)) :
    (changes.find? (Store.Call.touches uri)).bind Store.Call.text? = none := by
  induction changes with
  | nil => cases h
  | cons c rest ih =>
      rw [List.find?_cons] at h ⊢
      cases c with
      | put u text =>
          by_cases hu : u = uri
          · simp [Store.Call.edits, hu] at h
          · have hbeq : (u == uri) = false := by
              simpa using hu
            simp only [Store.Call.edits, hbeq] at h
            simp only [Store.Call.touches, hbeq]
            exact ih h
      | close u =>
          by_cases hu : u = uri
          · simp [Store.Call.touches, hu, Store.Call.text?]
          · have hbeq : (u == uri) = false := by
              simpa using hu
            simp only [Store.Call.edits, hbeq] at h
            simp only [Store.Call.touches, hbeq]
            exact ih h
      | clear => simp [Store.Call.touches, Store.Call.text?]
      | _ => exact ih h

theorem Coherent.snapshot?_of_closed {units : Units} {v : Server} (hv : Coherent units v)
    {uri : String} (hedit : v.lastEdit uri = some (.close uri)) :
    v.session.store.snapshot? uri = none := by
  have htexts := hv.texts uri
  rw [lastChange, text?_of_closed hedit] at htexts
  exact Option.map_eq_none_iff.mp htexts

section Turn

variable {limit : Nat} {units : Units} {v w : Server} {i : Nat} {stage : Stage}
  {sent : List (String × List Diagnostic)} {next : Option Stage}

theorem Turn.texts (h : Turn limit v i stage sent next w) (hv : Coherent units v) (uri : String) :
    (w.session.store.snapshot? uri).map Snapshot.text =
      (w.lastChange uri).bind Store.Call.text? := by
  rcases h with ⟨_, hpart, _, _, hchanges, _⟩
  generalize w.session.store = store at hpart ⊢
  have hsame : w.changes = v.changes → (v.session.store.snapshot? uri).map Snapshot.text =
      (w.lastChange uri).bind Store.Call.text? := by
    intro heq
    rw [hv.texts uri, lastChange, lastChange, heq]
  cases hpart with
  | puts r name text hr =>
      simp only [changeOf, hr, Option.toList_some, List.singleton_append] at hchanges
      rw [lastChange_of_changes hchanges, Store.snapshot?_put]
      by_cases hname : uri = name
      · simp [hname, Store.Call.touches, Store.Call.text?]
      · simp [hname, Ne.symm hname, Store.Call.touches, hv.texts uri]
  | closes r name hr =>
      simp only [changeOf, hr, Option.toList_some, List.singleton_append] at hchanges
      rw [lastChange_of_changes hchanges, Store.snapshot?_close]
      by_cases hname : uri = name
      · simp [hname, Store.Call.touches, Store.Call.text?]
      · simp [hname, Ne.symm hname, Store.Call.touches, hv.texts uri]
  | clears r hr =>
      simp only [changeOf, hr, Option.toList_some, List.singleton_append] at hchanges
      rw [lastChange_of_changes hchanges]
      simp [Store.Call.touches, Store.Call.text?]
  | begins r job hr _ =>
      exact hsame (by simpa [changeOf, hr] using hchanges)
  | reads name => exact hsame hchanges
  | ends job => exact hsame hchanges

theorem Turn.stamped (h : Turn limit v i stage sent next w) (hv : Coherent units v) (uri : String)
    (snap : Snapshot) (hsnap : w.session.store.snapshot? uri = some snap) :
    snap.uri = uri ∧ snap.generation ≤ w.session.store.issued := by
  rcases h with ⟨_, hpart, _, _, _, _⟩
  generalize w.session.store = store at hpart hsnap ⊢
  cases hpart with
  | puts r name text _ =>
      rw [Store.snapshot?_put] at hsnap
      split at hsnap
      · rename_i hname
        simp only [Option.some.injEq] at hsnap
        rw [← hsnap, hname]
        exact ⟨rfl, Nat.le_refl _⟩
      · rcases hv.stamped uri snap hsnap with ⟨huri, hle⟩
        exact ⟨huri, Nat.le_succ_of_le hle⟩
  | closes r name _ =>
      rw [Store.snapshot?_close] at hsnap
      split at hsnap
      · cases hsnap
      · exact hv.stamped uri snap hsnap
  | clears r _ => cases hsnap
  | begins r job _ _ => exact hv.stamped uri snap hsnap
  | reads _ => exact hv.stamped uri snap hsnap
  | ends _ => exact hv.stamped uri snap hsnap

/-- No part of a task gives a document a text of an old generation. -/
theorem Turn.held_or_new (h : Turn limit v i stage sent next w) (uri : String) (held : Snapshot)
    (hheld : w.session.store.snapshot? uri = some held) :
    v.session.store.snapshot? uri = some held ∨ v.session.store.issued < held.generation := by
  rcases h with ⟨_, hpart, _, _, _, _⟩
  generalize w.session.store = store at hpart hheld
  cases hpart with
  | puts r name text _ =>
      rw [Store.snapshot?_put] at hheld
      split at hheld
      · simp only [Option.some.injEq] at hheld
        rw [← hheld]
        exact Or.inr (Nat.lt_succ_self _)
      · exact Or.inl hheld
  | closes r name _ =>
      rw [Store.snapshot?_close] at hheld
      split at hheld
      · cases hheld
      · exact Or.inl hheld
  | clears r _ => cases hheld
  | begins r job _ _ => exact Or.inl hheld
  | reads _ => exact Or.inl hheld
  | ends _ => exact Or.inl hheld

theorem Turn.issued_le (h : Turn limit v i stage sent next w) :
    v.session.store.issued ≤ w.session.store.issued := by
  rcases h with ⟨_, hpart, _, _, _, _⟩
  generalize w.session.store = store at hpart ⊢
  cases hpart with
  | puts r name text _ => exact Nat.le_succ _
  | _ => exact Nat.le_refl _

theorem Turn.takes (h : Turn limit v i stage sent next w) {snap : Snapshot} {u : Units}
    (hnext : next = some (.working (.analysis snap u))) :
    w.session.store = v.session.store ∧ u = v.session.units ∧
      ∃ uri, v.session.store.snapshot? uri = some snap := by
  have htaken : ∀ job, v.session.TakenFrom job → job = .analysis snap u →
      u = v.session.units ∧ ∃ uri, v.session.store.snapshot? uri = some snap := by
    intro job htaken hjob
    rcases htaken with ⟨uri, held, hheld, heq⟩ | ⟨_, _, _, _, heq⟩
    · rw [heq] at hjob
      cases hjob
      exact ⟨rfl, uri, hheld⟩
    · rw [heq] at hjob
      cases hjob
  rcases h with ⟨_, hpart, _, _, _, _⟩
  generalize w.session.store = store at hpart ⊢
  cases hpart with
  | puts r name text _ => cases hnext
  | closes r name _ => cases hnext
  | clears r _ => cases hnext
  | begins r job _ hjob =>
      simp only [Option.map_eq_some_iff] at hnext
      rcases hnext with ⟨j, hj, heq⟩
      cases heq
      exact ⟨rfl, htaken _ (hjob _ hj) rfl⟩
  | reads uri =>
      simp only [Option.map_eq_some_iff] at hnext
      rcases hnext with ⟨j, hj, heq⟩
      cases heq
      exact ⟨rfl, htaken _ (takenFrom_of_analysisOf hj) rfl⟩
  | ends _ => cases hnext

theorem Turn.next_ne_arrived (h : Turn limit v i stage sent next w) (r : Request) :
    next ≠ some (.arrived r) := by
  rcases h with ⟨_, hpart, _, _, _, _⟩
  generalize w.session.store = store at hpart
  intro hnext
  cases hpart with
  | begins r' job _ _ =>
      simp only [Option.map_eq_some_iff] at hnext
      rcases hnext with ⟨_, _, heq⟩
      cases heq
  | reads uri =>
      simp only [Option.map_eq_some_iff] at hnext
      rcases hnext with ⟨_, _, heq⟩
      cases heq
  | _ => cases hnext

theorem Turn.lastPublished_cases (h : Turn limit v i stage sent next w) (uri : String) :
    (changeOf stage ≠ some (.close uri) ∧ w.lastPublished uri = v.lastPublished uri) ∨
      (changeOf stage = some (.close uri) ∧ w.lastPublished uri = some []) ∨
      ∃ snap u ds, stage = .working (.analysis snap u) ∧ snap.uri = uri ∧
        v.session.store.isCurrent uri snap.generation = true ∧
        diagnosticsOf? limit u snap.text uri = some ds ∧ w.lastPublished uri = some ds := by
  rcases h with ⟨_, hpart, _, _, _, hpublished⟩
  have hsame : w.published = v.published → w.lastPublished uri = v.lastPublished uri := by
    intro heq
    rw [lastPublished, lastPublished, heq]
  generalize w.session.store = store at hpart
  cases hpart with
  | puts r name text hr => exact Or.inl ⟨by simp [changeOf, hr], hsame hpublished⟩
  | closes r name hr =>
      have hlast := lastPublished_of_published hpublished uri
      by_cases hname : name = uri
      · rw [if_pos hname] at hlast
        exact Or.inr (Or.inl ⟨hname ▸ hr, hlast⟩)
      · rw [if_neg hname] at hlast
        exact Or.inl ⟨by simp [changeOf, hr, hname], hlast⟩
  | clears r hr => exact Or.inl ⟨by simp [changeOf, hr], hsame hpublished⟩
  | begins r job hr _ => exact Or.inl ⟨by simp [changeOf, hr], hsame hpublished⟩
  | reads name => exact Or.inl ⟨by simp [changeOf], hsame hpublished⟩
  | ends job =>
      have hnone : changeOf (.working job) ≠ some (.close uri) := by
        simp [changeOf]
      cases job with
      | completion snap u includeBuiltins position =>
          rw [published_finish_completion] at hpublished
          exact Or.inl ⟨hnone, hsame hpublished⟩
      | analysis snap u =>
          rw [published_finish_analysis] at hpublished
          by_cases hcurrent : v.session.store.isCurrent snap.uri snap.generation = true
          · rw [if_pos hcurrent] at hpublished
            cases hds : diagnosticsOf? limit u snap.text snap.uri with
            | none =>
                rw [hds] at hpublished
                exact Or.inl ⟨hnone, hsame hpublished⟩
            | some ds =>
                rw [hds] at hpublished
                have hlast := lastPublished_of_published hpublished uri
                by_cases hname : snap.uri = uri
                · rw [if_pos hname] at hlast
                  subst hname
                  exact Or.inr (Or.inr ⟨snap, u, ds, rfl, rfl, hcurrent, hds, hlast⟩)
                · rw [if_neg hname] at hlast
                  exact Or.inl ⟨hnone, hlast⟩
          · rw [if_neg hcurrent] at hpublished
            exact Or.inl ⟨hnone, hsame hpublished⟩

theorem Turn.lastEdit_cases (h : Turn limit v i stage sent next w) {uri : String}
    (hedit : w.lastEdit uri = some (.close uri)) :
    changeOf stage = some (.close uri) ∨ v.lastEdit uri = some (.close uri) := by
  cases hchange : changeOf stage with
  | none =>
      have hsame : w.changes = v.changes := by
        simpa [hchange] using h.changes_eq
      rw [lastEdit, hsame] at hedit
      exact Or.inr hedit
  | some c =>
      have hcons : w.changes = c :: v.changes := by
        simpa [hchange] using h.changes_eq
      rw [lastEdit_of_changes hcons] at hedit
      split at hedit
      · exact Or.inl hedit
      · exact Or.inr hedit

theorem Turn.closed (h : Turn limit v i stage sent next w) (hv : Coherent units v) (uri : String)
    (hedit : w.lastEdit uri = some (.close uri)) : w.lastPublished uri = some [] := by
  have hbefore := h.lastEdit_cases hedit
  rcases h.lastPublished_cases uri with ⟨hother, hlast⟩ | ⟨_, hlast⟩ | hsent
  · rcases hbefore with hnow | hthen
    · exact absurd hnow hother
    · rw [hlast]
      exact hv.closed uri hthen
  · exact hlast
  · rcases hsent with ⟨snap, u, ds, hstage, _, hcurrent, _, _⟩
    rcases hbefore with hnow | hthen
    · simp [hstage, changeOf] at hnow
    · rcases (Store.isCurrent_iff _ _ _).mp hcurrent with ⟨held, hheld, _⟩
      rw [hv.snapshot?_of_closed hthen] at hheld
      cases hheld

theorem Turn.jobs (h : Turn limit v i stage sent next w) (hv : Coherent units v) (j : Nat)
    (snap : Snapshot) (u : Units) (hj : w.At j (.working (.analysis snap u))) :
    u = units ∧ snap.generation ≤ w.session.store.issued ∧
      ∀ held, w.session.store.snapshot? snap.uri = some held →
        held.generation = snap.generation → held = snap := by
  rcases at_of_set h.tasks_eq hj with ⟨_, hnext⟩ | hold
  · rcases h.takes hnext with ⟨hstore, hu, uri, hsnap⟩
    rcases hv.stamped uri snap hsnap with ⟨huri, hle⟩
    rw [hstore]
    refine ⟨hu.trans hv.units_eq, hle, ?_⟩
    intro held hheld _
    rw [huri, hsnap] at hheld
    simp only [Option.some.injEq] at hheld
    exact hheld.symm
  · rcases hv.jobs j snap u hold with ⟨hu, hle, honly⟩
    refine ⟨hu, Nat.le_trans hle h.issued_le, ?_⟩
    intro held hheld hgeneration
    rcases h.held_or_new snap.uri held hheld with hbefore | hnew
    · exact honly held hbefore hgeneration
    · omega

theorem Turn.coherent (h : Turn limit v i stage sent next w) (hv : Coherent units v) :
    Coherent units w where
  units_eq := h.units_eq.trans hv.units_eq
  arrivals := by
    intro j r hj
    rcases at_of_set h.tasks_eq hj with ⟨_, hnext⟩ | hold
    · exact absurd hnext (h.next_ne_arrived r)
    · exact hv.arrivals j r hold
  texts := h.texts hv
  stamped := h.stamped hv
  jobs := h.jobs hv
  closed := h.closed hv

end Turn

/-!
# What holds as long as no task is cancelled
-/

/--
Every document of the store has a task that is going to send the list for its text, unless
that is the list sent last.
-/
def Attended (limit : Nat) (units : Units) (v : Server) : Prop :=
  ∀ uri snap, v.session.store.snapshot? uri = some snap →
    (∃ i, v.At i (.stored uri)) ∨
      (∃ i, v.At i (.working (.analysis snap units))) ∨
      ∀ ds, diagnosticsOf? limit units snap.text uri = some ds → v.lastPublished uri = some ds

theorem attended_fresh (limit : Nat) (s : Session) : Attended limit s.units (fresh s) := by
  intro uri snap h
  cases h

theorem attended_arrive (files : FileTree) (limit : Nat) {units : Units} {v : Server} (r : Request)
    (hv : Attended limit units v) : Attended limit units (v.step files limit (.arrive r)) := by
  have hkept : ∀ i stage, v.At i stage → (v.step files limit (.arrive r)).At i stage := by
    intro i stage h
    have hlt : i < v.tasks.length := (List.getElem?_eq_some_iff.mp h).1
    change (v.tasks ++ [some (.arrived r)])[i]? = some (some stage)
    rw [List.getElem?_append_left hlt]
    exact h
  intro uri snap h
  rcases hv uri snap h with ⟨i, hi⟩ | ⟨i, hi⟩ | hlast
  · exact Or.inl ⟨i, hkept i _ hi⟩
  · exact Or.inr (Or.inl ⟨i, hkept i _ hi⟩)
  · exact Or.inr (Or.inr hlast)

section Turn

variable {limit : Nat} {units : Units} {v w : Server} {i : Nat} {stage : Stage}
  {sent : List (String × List Diagnostic)} {next : Option Stage}

theorem Turn.lastPublished_of_held (h : Turn limit v i stage sent next w) (hv : Coherent units v)
    {uri : String} {snap : Snapshot} (hheld : v.session.store.snapshot? uri = some snap)
    (hopen : changeOf stage ≠ some (.close uri)) {ds : List Diagnostic}
    (hds : diagnosticsOf? limit units snap.text uri = some ds) :
    w.lastPublished uri = v.lastPublished uri ∨ w.lastPublished uri = some ds := by
  rcases h.lastPublished_cases uri with ⟨_, hlast⟩ | ⟨hclose, _⟩ | hsent
  · exact Or.inl hlast
  · exact absurd hclose hopen
  · rcases hsent with ⟨snap', u, ds', hstage, huri, hcurrent, hds', hlast⟩
    rcases hv.jobs i snap' u (hstage ▸ h.task) with ⟨hu, _, honly⟩
    rcases (Store.isCurrent_iff _ _ _).mp hcurrent with ⟨held, hheld', hgeneration⟩
    have hsnap : snap = snap' := by
      rw [hheld] at hheld'
      simp only [Option.some.injEq] at hheld'
      rw [hheld']
      exact honly held (by rw [huri, hheld, hheld']) hgeneration
    rw [hu, ← hsnap, hds] at hds'
    rw [hlast, ← hds']
    exact Or.inr rfl

theorem Turn.attended_of_held (h : Turn limit v i stage sent next w) (hv : Coherent units v)
    (ha : Attended limit units v) {uri : String} {snap : Snapshot}
    (hheld : v.session.store.snapshot? uri = some snap)
    (hopen : changeOf stage ≠ some (.close uri)) (hstored : stage ≠ .stored uri)
    (hworking : stage ≠ .working (.analysis snap units)) :
    (∃ j, w.At j (.stored uri)) ∨
      (∃ j, w.At j (.working (.analysis snap units))) ∨
      ∀ ds, diagnosticsOf? limit units snap.text uri = some ds → w.lastPublished uri = some ds := by
  rcases ha uri snap hheld with ⟨j, hj⟩ | ⟨j, hj⟩ | hlast
  · exact Or.inl ⟨j, at_set_of_ne h.tasks_eq h.task hj hstored⟩
  · exact Or.inr (Or.inl ⟨j, at_set_of_ne h.tasks_eq h.task hj hworking⟩)
  · refine Or.inr (Or.inr ?_)
    intro ds hds
    rcases h.lastPublished_of_held hv hheld hopen hds with hsame | hnew
    · rw [hsame]
      exact hlast ds hds
    · exact hnew

theorem Turn.attended (h : Turn limit v i stage sent next w) (hv : Coherent units v)
    (ha : Attended limit units v) : Attended limit units w := by
  intro uri snap hsnap
  have hturn := h
  rcases h with ⟨htask, hpart, _, htasks, _, hpublished⟩
  generalize w.session.store = store at hpart hsnap
  cases hpart with
  | puts r name text hr =>
      rw [Store.snapshot?_put] at hsnap
      split at hsnap
      · rename_i hname
        rw [hname]
        exact Or.inl ⟨i, at_set_self htasks htask⟩
      · exact hturn.attended_of_held hv ha hsnap (by simp [changeOf, hr]) (by simp) (by simp)
  | closes r name hr =>
      rw [Store.snapshot?_close] at hsnap
      split at hsnap
      · cases hsnap
      · rename_i hname
        exact hturn.attended_of_held hv ha hsnap (by simp [changeOf, hr, Ne.symm hname])
          (by simp) (by simp)
  | clears r hr => cases hsnap
  | begins r job hr _ =>
      exact hturn.attended_of_held hv ha hsnap (by simp [changeOf, hr]) (by simp) (by simp)
  | reads name =>
      by_cases hname : name = uri
      · -- The task has read the very text that the document has now.
        have hnext : (v.session.analysisOf name).map Stage.working =
            some (.working (.analysis snap units)) := by
          simp [analysisOf, hname, hsnap, hv.units_eq]
        rw [hnext] at htasks
        exact Or.inr (Or.inl ⟨i, at_set_self htasks htask⟩)
      · exact hturn.attended_of_held hv ha hsnap (by simp [changeOf]) (by simp [hname]) (by simp)
  | ends job =>
      by_cases hjob : job = .analysis snap units
      · have hcurrent : v.session.store.isCurrent snap.uri snap.generation = true := by
          rw [(hv.stamped uri snap hsnap).1]
          exact (Store.isCurrent_iff _ _ _).mpr ⟨snap, hsnap, rfl⟩
        rw [hjob, published_finish_analysis, if_pos hcurrent, (hv.stamped uri snap hsnap).1]
          at hpublished
        refine Or.inr (Or.inr ?_)
        intro ds hds
        rw [hds] at hpublished
        rw [lastPublished_of_published hpublished, if_pos rfl]
      · exact hturn.attended_of_held hv ha hsnap (by simp [changeOf]) (by simp) (by simp [hjob])

end Turn

/-!
# Whole runs
-/

def Move.keepsUnits : Move → Bool
  | arrive r => r.keepsUnits
  | _ => true

def Move.isCancel : Move → Bool
  | cancel _ => true
  | _ => false

theorem Coherent.resume_cases (files : FileTree) (limit : Nat) {units : Units} {v : Server}
    (hv : Coherent units v) (i : Nat) :
    v.step files limit (.resume i) = v ∨
      ∃ stage sent next, Turn limit v i stage sent next (v.step files limit (.resume i)) := by
  by_cases htask : ∃ stage, v.At i stage
  · rcases htask with ⟨stage, htask⟩
    have hstage : ∀ r, stage = .arrived r → r.keepsUnits = true := by
      intro r hr
      exact hv.arrivals i r (hr ▸ htask)
    exact Or.inr ⟨stage, turn_of_resume files limit htask hstage⟩
  · exact Or.inl (step_resume_of_ended files limit (by simpa using htask))

theorem coherent_step (files : FileTree) (limit : Nat) {units : Units} {v : Server} {move : Move}
    (hv : Coherent units v) (hkeep : move.keepsUnits = true) :
    Coherent units (v.step files limit move) := by
  cases move with
  | arrive r => exact coherent_arrive files limit hv hkeep
  | cancel i => exact coherent_cancel files limit hv
  | resume i =>
      rcases hv.resume_cases files limit i with hsame | ⟨stage, sent, next, hturn⟩
      · rw [hsame]
        exact hv
      · exact hturn.coherent hv

theorem attended_step (files : FileTree) (limit : Nat) {units : Units} {v : Server} {move : Move}
    (hv : Coherent units v) (ha : Attended limit units v) (hmove : move.isCancel = false) :
    Attended limit units (v.step files limit move) := by
  cases move with
  | arrive r => exact attended_arrive files limit r ha
  | cancel i => cases hmove
  | resume i =>
      rcases hv.resume_cases files limit i with hsame | ⟨stage, sent, next, hturn⟩
      · rw [hsame]
        exact ha
      · exact hturn.attended hv ha

theorem coherent_run (files : FileTree) (limit : Nat) {units : Units} (moves : List Move) {v : Server}
    (hv : Coherent units v) (hkeep : ∀ move ∈ moves, move.keepsUnits = true) :
    Coherent units (v.run files limit moves) := by
  induction moves generalizing v with
  | nil => exact hv
  | cons move rest ih =>
      have hstep := coherent_step files limit hv (hkeep move (List.mem_cons_self ..))
      exact ih hstep fun m hm => hkeep m (List.mem_cons_of_mem move hm)

theorem attended_run (files : FileTree) (limit : Nat) {units : Units} (moves : List Move) {v : Server}
    (hv : Coherent units v) (ha : Attended limit units v)
    (hkeep : ∀ move ∈ moves, move.keepsUnits = true)
    (hmoves : ∀ move ∈ moves, move.isCancel = false) :
    Attended limit units (v.run files limit moves) := by
  induction moves generalizing v with
  | nil => exact ha
  | cons move rest ih =>
      have hstep := coherent_step files limit hv (hkeep move (List.mem_cons_self ..))
      have hnext := attended_step files limit hv ha (hmoves move (List.mem_cons_self ..))
      exact ih hstep hnext (fun m hm => hkeep m (List.mem_cons_of_mem move hm))
        fun m hm => hmoves m (List.mem_cons_of_mem move hm)

/-- A job whose outcome is sent is an analysis of the very snapshot that the store holds. -/
theorem Coherent.sent_of_working {limit : Nat} {units : Units} {v : Server} (hv : Coherent units v)
    {i : Nat} {job : Job} (htask : v.At i (.working job)) {uri : String} {ds : List Diagnostic}
    (hsent : (uri, ds) ∈ (v.session.finish limit job).published) :
    ∃ snap, job = .analysis snap units ∧ v.session.store.snapshot? uri = some snap ∧
      diagnosticsOf? limit units snap.text uri = some ds := by
  cases job with
  | completion snap u includeBuiltins position =>
      rw [published_finish_completion] at hsent
      cases hsent
  | analysis snap u =>
      rcases hv.jobs i snap u htask with ⟨hu, _, honly⟩
      rw [published_finish_analysis] at hsent
      split at hsent
      · rename_i hcurrent
        simp only [List.mem_map, Option.mem_toList, Prod.mk.injEq] at hsent
        rcases hsent with ⟨ds', hds, huri, heq⟩
        rcases (Store.isCurrent_iff _ _ _).mp hcurrent with ⟨held, hheld, hgeneration⟩
        rw [honly held hheld hgeneration, huri] at hheld
        rw [hu, huri, heq] at hds
        exact ⟨snap, by rw [hu], hheld, hds⟩
      · cases hsent

theorem eq_close_of_change? {r : Request} {uri : String} (h : r.change? = some (.close uri)) :
    r = .close uri := by
  cases r with
  | close u =>
      simp only [Request.change?, Option.some.injEq, Store.Call.close.injEq] at h
      rw [h]
  | _ => simp [Request.change?, Request.text?] at h

theorem Turn.sent_cases {limit : Nat} {units : Units} {v w : Server} {i : Nat} {stage : Stage}
    {sent : List (String × List Diagnostic)} {next : Option Stage}
    (h : Turn limit v i stage sent next w) (hv : Coherent units v) {uri : String}
    {ds : List Diagnostic} (hsent : (uri, ds) ∈ sent) :
    (stage = .arrived (.close uri) ∧ ds = []) ∨
      ∃ snap, stage = .working (.analysis snap units) ∧
        w.session.store.snapshot? uri = some snap ∧
        diagnosticsOf? limit units snap.text uri = some ds := by
  rcases h with ⟨htask, hpart, _, _, _, _⟩
  generalize w.session.store = store at hpart ⊢
  cases hpart with
  | puts r name text hr => cases hsent
  | closes r name hr =>
      rw [List.mem_singleton, Prod.mk.injEq] at hsent
      rw [hsent.1, eq_close_of_change? hr]
      exact Or.inl ⟨rfl, hsent.2⟩
  | clears r hr => cases hsent
  | begins r job hr hjob => cases hsent
  | reads name => cases hsent
  | ends job =>
      rcases hv.sent_of_working htask hsent with ⟨snap, rfl, hsnap, hds⟩
      exact Or.inr ⟨snap, rfl, hsnap, hds⟩

theorem Coherent.published_step (files : FileTree) (limit : Nat) {units : Units} {v : Server}
    (hv : Coherent units v) (move : Move) :
    ∃ sent, (v.step files limit move).published = sent ++ v.published ∧
      ∀ uri ds, (uri, ds) ∈ sent →
        (∃ i, move = .resume i ∧ v.At i (.arrived (.close uri)) ∧ ds = []) ∨
          ∃ i snap, move = .resume i ∧ v.At i (.working (.analysis snap units)) ∧
            (v.step files limit move).session.store.snapshot? uri = some snap ∧
            diagnosticsOf? limit units snap.text uri = some ds := by
  cases move with
  | arrive r => exact ⟨[], rfl, fun _ _ hsent => absurd hsent List.not_mem_nil⟩
  | cancel i => exact ⟨[], rfl, fun _ _ hsent => absurd hsent List.not_mem_nil⟩
  | resume i =>
      rcases hv.resume_cases files limit i with hsame | ⟨stage, sent, next, hturn⟩
      · rw [hsame]
        exact ⟨[], rfl, fun _ _ hsent => absurd hsent List.not_mem_nil⟩
      · refine ⟨sent.reverse, hturn.published_eq, ?_⟩
        intro uri ds hsent
        rcases hturn.sent_cases hv (List.mem_reverse.mp hsent) with
          ⟨hstage, hds⟩ | ⟨snap, hstage, hsnap, hds⟩
        · exact Or.inl ⟨i, rfl, hstage ▸ hturn.task, hds⟩
        · exact Or.inr ⟨i, snap, rfl, hstage ▸ hturn.task, hsnap, hds⟩

/--
Whatever the next move after a run, the lists it sends are empty ones for documents that are just
closed, or each is that of the very text which the store holds at that moment, and of which the
task has taken its snapshot.  Once all tasks have ended and none was cancelled, the last list sent
for a document is that of the text last put into the store, if the analysis of that text has an
outcome, and the last list sent for a document that was last closed is empty.
-/
theorem published_lists_follow_texts (files : FileTree) (limit : Nat) (s : Session)
    (moves : List Move) (hkeep : ∀ move ∈ moves, move.keepsUnits = true) :
    let v := (fresh s).run files limit moves
    (∀ move, ∃ sent, (v.step files limit move).published = sent ++ v.published ∧
      ∀ uri ds, (uri, ds) ∈ sent →
        (∃ i, move = .resume i ∧ v.At i (.arrived (.close uri)) ∧ ds = []) ∨
          ∃ i snap, move = .resume i ∧ v.At i (.working (.analysis snap s.units)) ∧
            (v.step files limit move).session.store.snapshot? uri = some snap ∧
            diagnosticsOf? limit s.units snap.text uri = some ds) ∧
    (v.Finished → (∀ move ∈ moves, move.isCancel = false) →
      ∀ uri,
        (∀ text ds, v.lastChange uri = some (.put uri text) →
          diagnosticsOf? limit s.units text uri = some ds →
          v.lastPublished uri = some ds) ∧
        (v.lastEdit uri = some (.close uri) → v.lastPublished uri = some [])) := by
  intro v
  have hcoherent : Coherent s.units v := coherent_run files limit moves (coherent_fresh s) hkeep
  refine ⟨hcoherent.published_step files limit, ?_⟩
  intro hfinished hmoves uri
  refine ⟨?_, hcoherent.closed uri⟩
  intro text ds hchange hds
  have hattended : Attended limit s.units v := attended_run files limit moves (coherent_fresh s)
    (attended_fresh limit s) hkeep hmoves
  have htexts := hcoherent.texts uri
  rw [hchange] at htexts
  rcases Option.map_eq_some_iff.mp htexts with ⟨snap, hsnap, htext⟩
  rcases hattended uri snap hsnap with ⟨i, hi⟩ | ⟨i, hi⟩ | hlast
  · exact absurd hi (hfinished i _)
  · exact absurd hi (hfinished i _)
  · exact hlast ds (htext ▸ hds)

/--
The text of `a` is replaced while it is analysed, and `b` is closed before the task that opened
it has read its text back.
-/
def overtaken : List Move :=
  [.arrive (.openDocument "a" "("), .resume 0, .resume 0, .arrive (.change "a" ["", ")"]),
    .resume 1, .resume 0, .arrive (.openDocument "b" "("), .arrive (.close "b"), .resume 2,
    .resume 3, .resume 2, .resume 1, .resume 1]

def noFiles : FileTree :=
  ⟨fun _ => false, fun _ => .missing⟩

theorem published_lists_follow_texts_overtaken :
    ((fresh {}).run noFiles 5 overtaken).lastPublished "a" =
        some [⟨⟨⟨0, 0⟩, ⟨0, 1⟩⟩, "expected expression", "a"⟩] ∧
      ((fresh {}).run noFiles 5 overtaken).lastPublished "b" = some [] := by
  have hlists := published_lists_follow_texts noFiles 5 {} overtaken (by decide)
  have htasks : ((fresh {}).run noFiles 5 overtaken).tasks = [none, none, none, none] := rfl
  have hfinished : ((fresh {}).run noFiles 5 overtaken).Finished := by
    intro i stage h
    unfold At at h
    rw [htasks] at h
    simpa using List.mem_of_getElem? h
  have hlast := hlists.2 hfinished (by decide)
  have hlexed : Lexed.ofText ")" = ⟨[⟨.op, ")", 1, 1⟩, ⟨.eof, "", 1, 2⟩], []⟩ := by
    decide +kernel
  have hlabel : Uri.label "a" = .ok "a" := rfl
  have hdiagnostics : diagnosticsOf? 5 .utf16 ")" "a" =
      some [⟨⟨⟨0, 0⟩, ⟨0, 1⟩⟩, "expected expression", "a"⟩] := by
    simp only [diagnosticsOf?, Report.ofText, hlabel, Analysis.ofText, hlexed]
    rfl
  exact ⟨(hlast "a").1 ")" _ rfl hdiagnostics, (hlast "b").2 rfl⟩

end Server
end TypedAnt
