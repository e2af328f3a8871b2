import Mathlib.Data.List.DropRight
import TypedAnt.Program.Parser
import TypedAnt.Proofs.Fields
import TypedAnt.Settings.Project

/-!
# Layers of settings

Merging layers is described without the order of its steps: for each setting the entries of
all layers stand in one row, and the last of them that says something decides.  Merging
fails only where a value has to be written out and has no text.
-/

namespace TypedAnt

def Value.entry? (v : Value) (key : String) : Option Value :=
  v.members.get? key

/-!
# Words between blanks
-/

namespace Text

theorem dropWhile_isBlank_eq_self {cs : List Char} (h : ∀ c ∈ cs, isBlank c = false) :
    cs.dropWhile isBlank = cs := by
  cases cs with
  | nil => rfl
  | cons c cs => exact List.dropWhile_cons_of_neg (by simp [h c (List.mem_cons_self)])

theorem trimBlank_append {before core after : List Char}
    (hblank : ∀ c ∈ before ++ after, isBlank c = true) (hcore : ∀ c ∈ core, isBlank c = false) :
    trimBlank (before ++ core ++ after) = core := by
  rw [List.forall_mem_append] at hblank
  have hback : ∀ c ∈ after.reverse, isBlank c = true :=
    fun c hc => hblank.2 c (List.mem_reverse.mp hc)
  unfold trimBlank
  rw [List.append_assoc, List.dropWhile_append_of_pos hblank.1]
  cases core with
  | nil => simp [List.dropWhile_eq_nil_iff.mpr hblank.2]
  | cons c cs =>
      have hc : ¬isBlank c = true := by simp [hcore c List.mem_cons_self]
      rw [List.cons_append, List.dropWhile_cons_of_neg hc, ← List.cons_append, List.reverse_append,
        List.dropWhile_append_of_pos hback, dropWhile_isBlank_eq_self, List.reverse_reverse]
      intro d hd
      exact hcore d (List.mem_reverse.mp hd)

theorem exists_append_trimBlank (cs : List Char) :
    ∃ before after, cs = before ++ trimBlank cs ++ after ∧
      ∀ c ∈ before ++ after, isBlank c = true := by
  refine ⟨cs.takeWhile isBlank, (cs.dropWhile isBlank).rtakeWhile isBlank, ?_, ?_⟩
  · have hback : trimBlank cs ++ (cs.dropWhile isBlank).rtakeWhile isBlank =
        cs.dropWhile isBlank :=
      List.rdropWhile_append_rtakeWhile ..
    rw [List.append_assoc, hback, List.takeWhile_append_dropWhile]
  · rw [List.forall_mem_append]
    exact ⟨fun c hc => List.all_eq_true.mp List.all_takeWhile c hc,
      fun c hc => List.mem_rtakeWhile_imp hc⟩

theorem toLower_of_isBlank {c : Char} (h : isBlank c = true) : c.toLower = c := by
  have hcode : ¬(65 ≤ c.toNat ∧ c.toNat ≤ 90) := by
    intro hletter
    simp only [isBlank, blankRanges, inRanges] at h
    grind
  have hletter : ¬(c.val ≥ 'A'.val ∧ c.val ≤ 'Z'.val) := hcode
  unfold Char.toLower
  rw [dif_neg hletter]

end Text

namespace Settings

/-!
# Entries that say something
-/

/-- A word with nothing but blanks around it, whatever letters of it are capitals. -/
def IsWord (s word : String) : Prop :=
  ∃ before core after, s.toList = before ++ core ++ after ∧
    (∀ c ∈ before ++ after, Text.isBlank c = true) ∧ core.map Char.toLower = word.toList

/-- A value that stands for a flag. -/
inductive StandsFor : Value → Bool → Prop where
  | flag (b : Bool) : StandsFor (.bool b) b
  | yes {s word : String} : word ∈ trueWords → IsWord s word → StandsFor (.text s) true
  | no {s word : String} : word ∈ falseWords → IsWord s word → StandsFor (.text s) false

/-- Every value but null names a level, by its text. -/
inductive NamesLevel : Value → Option String → Prop where
  | text {v : Value} : v ≠ .null → NamesLevel v (some v.asText)

theorem isWord_iff {s word : String} (hword : ∀ c ∈ word.toList, Text.isBlank c = false) :
    IsWord s word ↔
      String.ofList ((Text.trimBlank s.toList).map Char.toLower) = word := by
  constructor
  · intro h
    rcases h with ⟨before, core, after, hs, hblank, hcore⟩
    have hfree : ∀ c ∈ core, Text.isBlank c = false := by
      intro c hc
      have hlower : Text.isBlank c.toLower = false := by
        apply hword
        rw [← hcore]
        exact List.mem_map_of_mem hc
      by_contra hnot
      have hblank' : Text.isBlank c = true := by simpa using hnot
      rw [Text.toLower_of_isBlank hblank', hblank'] at hlower
      cases hlower
    rw [hs, Text.trimBlank_append hblank hfree, hcore, String.ofList_toList]
  · intro h
    rcases Text.exists_append_trimBlank s.toList with ⟨before, after, hs, hblank⟩
    refine ⟨before, _, after, hs, hblank, ?_⟩
    rw [← h, String.toList_ofList]

theorem isBlank_of_mem_words :
    ∀ word ∈ trueWords ++ falseWords, ∀ c ∈ word.toList, Text.isBlank c = false := by
  have hall : ((trueWords ++ falseWords).all fun word => word.toList.all (!Text.isBlank ·)) =
      true := by decide +kernel
  intro word hword c hc
  have hfree := List.all_eq_true.mp hall word hword
  simpa using List.all_eq_true.mp hfree c hc

theorem not_mem_trueWords : ∀ word ∈ falseWords, word ∉ trueWords := by
  decide

theorem flag?_eq_some_iff {v : Value} {b : Bool} : flag? v = some b ↔ StandsFor v b := by
  constructor
  · intro h
    unfold flag? at h
    split at h
    · cases h
      exact .flag b
    · dsimp only at h
      split at h
      · rename_i hyes
        cases h
        have hword := List.contains_iff_mem.mp hyes
        exact .yes hword
          ((isWord_iff (isBlank_of_mem_words _ (List.mem_append_left _ hword))).mpr rfl)
      · split at h
        · rename_i hno
          cases h
          have hword := List.contains_iff_mem.mp hno
          exact .no hword
            ((isWord_iff (isBlank_of_mem_words _ (List.mem_append_right _ hword))).mpr rfl)
        · cases h
    · cases h
  · intro h
    cases h with
    | flag b => rfl
    | yes hword hs =>
        rw [isWord_iff (isBlank_of_mem_words _ (List.mem_append_left _ hword))] at hs
        simp [flag?, hs, hword]
    | @no s word hword hs =>
        rw [isWord_iff (isBlank_of_mem_words _ (List.mem_append_right _ hword))] at hs
        simp [flag?, hs, hword, not_mem_trueWords word hword]

def level? : Value → Option String
  | .null => none
  | v => some v.asText

theorem level?_eq_some_iff {v : Value} {level : Option String} :
    (level? v).map some = some level ↔ NamesLevel v level := by
  constructor
  · intro h
    unfold level? at h
    split at h
    · cases h
    · rename_i hnull
      cases h
      exact .text hnull
  · intro h
    cases h with
    | text hnull =>
        unfold level?
        split
        · exact absurd rfl hnull
        · rfl

/-!
# The last entry that says something
-/

/-- The last of the entries that say something decides; where none does, `start` stays. -/
inductive LastSays {α : Type} (Says : Value → α → Prop) (start : α) : List Value → α → Prop where
  | none {entries : List Value} : (∀ e ∈ entries, ∀ x, ¬Says e x) →
      LastSays Says start entries start
  | last {before after : List Value} {e : Value} {x : α} : Says e x →
      (∀ e' ∈ after, ∀ y, ¬Says e' y) → LastSays Says start (before ++ e :: after) x

theorem lastSays_iff {α : Type} {Says : Value → α → Prop} {read : Value → Option α}
    (hread : ∀ e x, read e = some x ↔ Says e x) {start : α} {entries : List Value} {x : α} :
    LastSays Says start entries x ↔ x = (entries.filterMap read).getLast?.getD start := by
  have hsilent {e : Value} : (∀ x, ¬Says e x) ↔ read e = none := by
    rw [Option.eq_none_iff_forall_ne_some]
    exact forall_congr' fun x => not_congr (hread e x).symm
  constructor
  · intro h
    cases h with
    | none h =>
        rw [List.filterMap_eq_nil_iff.mpr fun e he => hsilent.mp (h e he)]
        rfl
    | last he hafter =>
        rw [List.filterMap_append, List.filterMap_cons_some ((hread _ _).mpr he),
          List.filterMap_eq_nil_iff.mpr fun e he => hsilent.mp (hafter e he)]
        simp
  · intro h
    induction entries using List.reverseRecOn generalizing x with
    | nil =>
        cases h
        exact .none (by simp)
    | append_singleton before e ih =>
        cases he : read e with
        | some y =>
            have hx : x = y := by simpa [he] using h
            rw [hx]
            exact .last ((hread e y).mp he) (by simp)
        | none =>
            have hlast := ih (by simpa [he] using h)
            cases hlast with
            | none hbefore =>
                apply LastSays.none
                rw [List.forall_mem_append]
                exact ⟨hbefore, by simpa using hsilent.mpr he⟩
            | @last before' after e' _ hsays hafter =>
                rw [List.append_assoc, List.cons_append]
                apply LastSays.last hsays
                rw [List.forall_mem_append]
                exact ⟨hafter, by simpa using hsilent.mpr he⟩

/-- The entries for a setting: layer by layer, and in each layer in the order of the spellings. -/
def entries (keys : List String) (layers : List Value) : List Value :=
  layers.flatMap fun layer => keys.filterMap layer.entry?

/-!
# One layer
-/

section Layers

variable {limit level : Nat} {v : Value}

theorem written_of_none {text : Value → String} (h : v.obstacle? limit = none) :
    v.written limit text = .ok (text v) := by
  simp [Value.written, h]

theorem written_of_some {text : Value → String} {obstacle : Value.Obstacle}
    (h : v.obstacle? limit = some obstacle) : v.written limit text = .error obstacle := by
  simp [Value.written, h]

theorem mapM_written_eq_ok_iff {text : Value → String} {values : List Value}
    {texts : List String} :
    values.mapM (Value.written limit text) = .ok texts ↔
      (∀ e ∈ values, e.obstacle? limit = none) ∧ values.map text = texts := by
  induction values generalizing texts with
  | nil => simp [pure, Except.pure]
  | cons e values ih =>
      rw [List.mapM_cons, List.forall_mem_cons]
      cases he : e.obstacle? limit with
      | some obstacle => simp [written_of_some he, bind, Except.bind]
      | none =>
          rw [written_of_none he]
          cases hrest : values.mapM (Value.written limit text) with
          | error obstacle =>
              have hnot : ¬∀ e ∈ values, e.obstacle? limit = none := by
                intro hall
                cases hrest.symm.trans (ih.mpr ⟨hall, rfl⟩)
              simp [bind, Except.bind, hnot]
          | ok rest =>
              rcases ih.mp hrest with ⟨hall, rfl⟩
              simp only [bind, Except.bind, pure, Except.pure, Except.ok.injEq, List.map_cons,
                true_and]
              exact ⟨fun h => ⟨hall, h⟩, fun h => h.2⟩

theorem given?_eq_some_iff {fields : Fields Value} {key : String} {e : Value} :
    Layer.given? fields key = some e ↔ fields.get? key = some e ∧ e ≠ .null := by
  unfold Layer.given?
  split
  · rename_i hnull
    rw [hnull]
    constructor
    · intro h
      cases h
    · intro h
      cases h.1
      exact absurd rfl h.2
  · rename_i hnull
    constructor
    · intro h
      refine ⟨h, ?_⟩
      intro he
      exact hnull (he ▸ h)
    · intro h
      exact h.1

theorem map_asText_given? (fields : Fields Value) (key : String) :
    (Layer.given? fields key).map Value.asText = (fields.get? key).bind level? := by
  unfold Layer.given?
  cases fields.get? key with
  | none => rfl
  | some e => cases e <;> rfl

theorem bind_flag?_given? (fields : Fields Value) (key : String) :
    (Layer.given? fields key).bind flag? = (fields.get? key).bind flag? := by
  unfold Layer.given?
  cases fields.get? key with
  | none => rfl
  | some e => cases e <;> rfl

theorem lastText_eq_ok_iff {fields : Fields Value} {keys : List String} {text : Option String} :
    Layer.lastText limit fields keys = .ok text ↔
      (∀ key ∈ keys, ∀ e ∈ fields.get? key, e.obstacle? limit = none) ∧
        ((keys.filterMap fields.get?).filterMap level?).getLast? = text := by
  have hall : (∀ e ∈ keys.filterMap (Layer.given? fields), e.obstacle? limit = none) ↔
      ∀ key ∈ keys, ∀ e ∈ fields.get? key, e.obstacle? limit = none := by
    constructor
    · intro h key hkey e he
      by_cases hnull : e = .null
      · rw [hnull]
        rfl
      · exact h e (List.mem_filterMap.mpr ⟨key, hkey, given?_eq_some_iff.mpr ⟨he, hnull⟩⟩)
    · intro h e he
      rcases List.mem_filterMap.mp he with ⟨key, hkey, hgiven⟩
      exact h key hkey e (given?_eq_some_iff.mp hgiven).1
  have htexts : (keys.filterMap (Layer.given? fields)).map Value.asText =
      (keys.filterMap fields.get?).filterMap level? := by
    rw [List.map_filterMap, List.filterMap_filterMap]
    simp only [map_asText_given?]
  unfold Layer.lastText
  cases hmap : (keys.filterMap (Layer.given? fields)).mapM (Value.written limit Value.asText) with
  | error obstacle =>
      have hnot : ¬∀ key ∈ keys, ∀ e ∈ fields.get? key, e.obstacle? limit = none := by
        intro h
        cases hmap.symm.trans (mapM_written_eq_ok_iff.mpr ⟨hall.mpr h, rfl⟩)
      constructor
      · intro h
        cases h
      · intro h
        exact absurd h.1 hnot
  | ok texts =>
      rcases mapM_written_eq_ok_iff.mp hmap with ⟨h, rfl⟩
      rw [htexts]
      simp only [bind, Except.bind, pure, Except.pure, Except.ok.injEq]
      exact ⟨fun htext => ⟨hall.mp h, htext⟩, fun htext => htext.2⟩

theorem lastEntry_eq (fields : Fields Value) (keys : List String) :
    Layer.lastEntry fields flag? keys =
      ((keys.filterMap fields.get?).filterMap flag?).getLast? := by
  unfold Layer.lastEntry
  rw [List.filterMap_filterMap, List.getLast?_eq_head?_reverse, ← List.filterMap_reverse,
    List.head?_filterMap]
  simp only [bind_flag?_given?]

theorem misfit?_eq_some_iff {fields : Fields Value} {key : String} {e : Value} :
    Layer.misfit? fields key = some e ↔
      fields.get? key = some e ∧ e ≠ .null ∧ ∀ b, ¬StandsFor e b := by
  unfold Layer.misfit?
  rw [Option.filter_eq_some_iff, given?_eq_some_iff, and_assoc, Option.isNone_iff_eq_none,
    Option.eq_none_iff_forall_ne_some]
  simp only [ne_eq, flag?_eq_some_iff]

/-- An entry that should be a flag and is none does no harm unless it is nested too deeply. -/
theorem complain_eq_ok_iff {fields : Fields Value} {keys : List String} :
    (Layer.complain limit fields keys).value = .ok () ↔
      ∀ key ∈ keys, ∀ e ∈ fields.get? key,
        (∃ b, StandsFor e b) ∨ e.obstacle? limit ≠ some .deepNesting := by
  induction keys with
  | nil => simp [Layer.complain]
  | cons key keys ih =>
      rw [Layer.complain, List.forall_mem_cons, ← ih]
      cases hmisfit : Layer.misfit? fields key with
      | none =>
          have hfits : ∀ e ∈ fields.get? key,
              (∃ b, StandsFor e b) ∨ e.obstacle? limit ≠ some .deepNesting := by
            intro e he
            by_cases hnull : e = .null
            · have hnone : Value.obstacle? limit .null = none := rfl
              rw [hnull, hnone]
              exact Or.inr (by simp)
            · by_contra hnot
              have hsome := misfit?_eq_some_iff.mpr
                ⟨he, hnull, fun b hb => hnot (Or.inl ⟨b, hb⟩)⟩
              cases hmisfit.symm.trans hsome
          exact ⟨fun h => ⟨hfits, h⟩, fun h => h.2⟩
      | some e =>
          rcases misfit?_eq_some_iff.mp hmisfit with ⟨hget, -, hsilent⟩
          have hentry : (∀ e' ∈ fields.get? key,
              (∃ b, StandsFor e' b) ∨ e'.obstacle? limit ≠ some .deepNesting) ↔
                e.obstacle? limit ≠ some .deepNesting := by
            rw [hget]
            simp only [Option.mem_some_iff, forall_eq']
            exact or_iff_right fun h => h.elim hsilent
          rw [hentry]
          cases hobstacle : e.obstacle? limit with
          | none => simp [written_of_none hobstacle]
          | some obstacle =>
              cases obstacle with
              | longInt => simp [written_of_some hobstacle]
              | deepNesting => simp [written_of_some hobstacle]

/--
What merging a layer has to write out can be written out.  A warning that is lost because of a
long integer does not count.
-/
structure Writable (limit level : Nat) (v : Value) : Prop where
  levels : ∀ key ∈ Layer.logLevelKeys, ∀ e ∈ v.entry? key, e.obstacle? limit = none
  misfits : level ≤ Log.Level.warning.number →
    ∀ key ∈ Layer.includeBuiltinsKeys, ∀ e ∈ v.entry? key,
      (∃ b, StandsFor e b) ∨ e.obstacle? limit ≠ some .deepNesting

def heldBy (v : Value) : Layer :=
  ⟨((Layer.logLevelKeys.filterMap v.entry?).filterMap level?).getLast?,
    ((Layer.includeBuiltinsKeys.filterMap v.entry?).filterMap flag?).getLast?⟩

theorem andThen_eq_ok_iff {ε α β : Type} {a : Logged (Except ε α)}
    {f : α → Logged (Except ε β)} {y : β} :
    (a.andThen f).value = .ok y ↔ ∃ x, a.value = .ok x ∧ (f x).value = .ok y := by
  unfold Logged.andThen
  cases a.value <;> simp

theorem ofValue_eq_ok_iff {layer : Layer} :
    (Layer.ofValue limit level v).value = .ok layer ↔
      Writable limit level v ∧ heldBy v = layer := by
  have hwarnings : (∀ key ∈
      (if level ≤ Log.Level.warning.number then Layer.includeBuiltinsKeys else []),
        ∀ e ∈ v.entry? key, (∃ b, StandsFor e b) ∨ e.obstacle? limit ≠ some .deepNesting) ↔
      (level ≤ Log.Level.warning.number → ∀ key ∈ Layer.includeBuiltinsKeys,
        ∀ e ∈ v.entry? key, (∃ b, StandsFor e b) ∨ e.obstacle? limit ≠ some .deepNesting) := by
    split
    · rename_i hlevel
      exact ⟨fun h _ => h, fun h => h hlevel⟩
    · rename_i hlevel
      exact ⟨fun _ h => absurd h hlevel, fun _ key hkey => absurd hkey List.not_mem_nil⟩
  unfold Layer.ofValue
  cases htext : Layer.lastText limit v.members Layer.logLevelKeys with
  | error obstacle =>
      constructor
      · intro h
        cases h
      · intro h
        cases htext.symm.trans (lastText_eq_ok_iff.mpr ⟨h.1.levels, rfl⟩)
  | ok text =>
      rcases lastText_eq_ok_iff.mp htext with ⟨hlevels, rfl⟩
      dsimp only
      rw [andThen_eq_ok_iff, lastEntry_eq]
      constructor
      · intro h
        rcases h with ⟨_, hcomplain, hlayer⟩
        cases hlayer
        exact ⟨⟨hlevels, hwarnings.mp (complain_eq_ok_iff.mp hcomplain)⟩, rfl⟩
      · intro h
        rcases h with ⟨hwritable, rfl⟩
        exact ⟨(), complain_eq_ok_iff.mpr (hwarnings.mpr hwritable.misfits), rfl⟩

/-!
# Many layers
-/

def mergeAll (limit level : Nat) (s : Settings) :
    List Value → Logged (Except Value.Obstacle Settings)
  | [] => { value := .ok s }
  | layer :: layers =>
      (s.merge limit level layer).andThen fun s => mergeAll limit level s layers

theorem merge_eq_ok_iff {s r : Settings} :
    (s.merge limit level v).value = .ok r ↔ Writable limit level v ∧ s.apply (heldBy v) = r := by
  unfold merge
  dsimp only
  constructor
  · intro h
    cases hlayer : (Layer.ofValue limit level v).value with
    | error obstacle =>
        rw [hlayer] at h
        cases h
    | ok layer =>
        rw [hlayer] at h
        rcases ofValue_eq_ok_iff.mp hlayer with ⟨hwritable, rfl⟩
        cases h
        exact ⟨hwritable, rfl⟩
  · intro h
    rcases h with ⟨hwritable, rfl⟩
    rw [ofValue_eq_ok_iff.mpr ⟨hwritable, rfl⟩]
    rfl

theorem mergeAll_eq_ok_iff {s r : Settings} {layers : List Value} :
    (s.mergeAll limit level layers).value = .ok r ↔
      (∀ layer ∈ layers, Writable limit level layer) ∧
        layers.foldl (fun s layer => s.apply (heldBy layer)) s = r := by
  induction layers generalizing s with
  | nil => simp [mergeAll]
  | cons layer layers ih =>
      rw [mergeAll, andThen_eq_ok_iff, List.forall_mem_cons, List.foldl_cons]
      constructor
      · intro h
        rcases h with ⟨s', hmerge, hrest⟩
        rcases merge_eq_ok_iff.mp hmerge with ⟨hwritable, rfl⟩
        rcases ih.mp hrest with ⟨hall, hr⟩
        exact ⟨⟨hwritable, hall⟩, hr⟩
      · intro h
        exact ⟨_, merge_eq_ok_iff.mpr ⟨h.1.1, rfl⟩, ih.mpr ⟨h.1.2, h.2⟩⟩

theorem apply_all_eq (s : Settings) (layers : List Value) :
    layers.foldl (fun s layer => s.apply (heldBy layer)) s =
      ⟨((entries Layer.logLevelKeys layers).filterMap level?).getLast?.or s.logLevel,
        ((entries Layer.includeBuiltinsKeys layers).filterMap flag?).getLast?.getD
          s.includeBuiltins⟩ := by
  induction layers generalizing s with
  | nil => rfl
  | cons layer layers ih =>
      rw [List.foldl_cons, ih]
      unfold entries
      simp only [List.flatMap_cons, List.filterMap_append, List.getLast?_append, apply, heldBy,
        Option.or_assoc, Option.getD_or]

theorem getLast?_level? (es : List Value) (start : Option String) :
    (es.filterMap fun e => (level? e).map some).getLast?.getD start =
      (es.filterMap level?).getLast?.or start := by
  have hmap : (es.filterMap fun e => (level? e).map some) = (es.filterMap level?).map some := by
    rw [List.map_filterMap]
  rw [hmap, List.getLast?_map]
  cases (es.filterMap level?).getLast? <;> rfl

theorem mergeAll_eq_ok_iff_lastSays {s r : Settings} {layers : List Value} :
    (s.mergeAll limit level layers).value = .ok r ↔
      (∀ layer ∈ layers, Writable limit level layer) ∧
        LastSays NamesLevel s.logLevel (entries Layer.logLevelKeys layers) r.logLevel ∧
        LastSays StandsFor s.includeBuiltins (entries Layer.includeBuiltinsKeys layers)
          r.includeBuiltins := by
  rw [mergeAll_eq_ok_iff, apply_all_eq, lastSays_iff fun _ _ => level?_eq_some_iff,
    lastSays_iff fun _ _ => flag?_eq_some_iff, getLast?_level?]
  rcases r with ⟨logLevel, includeBuiltins⟩
  rw [Settings.mk.injEq, eq_comm (a := logLevel), eq_comm (a := includeBuiltins)]

/-!
# What does not matter
-/

theorem apply_apply (s : Settings) (layer : Layer) :
    (s.apply layer).apply layer = s.apply layer := by
  rcases layer with ⟨logLevel, includeBuiltins⟩
  cases logLevel <;> cases includeBuiltins <;> rfl

theorem mergeAll_cons_value (s : Settings) (layer : Value) (layers : List Value) :
    (s.mergeAll limit level (layer :: layers)).value =
      (s.merge limit level layer).value.bind fun s => (s.mergeAll limit level layers).value := by
  rw [mergeAll]
  unfold Logged.andThen
  cases (s.merge limit level layer).value <;> rfl

theorem mergeAll_append (s : Settings) (layers more : List Value) :
    (s.mergeAll limit level (layers ++ more)).value =
      (s.mergeAll limit level layers).value.bind
        fun s => (s.mergeAll limit level more).value := by
  induction layers generalizing s with
  | nil => rfl
  | cons layer layers ih =>
      rw [List.cons_append, mergeAll_cons_value, mergeAll_cons_value]
      cases (s.merge limit level layer).value with
      | error obstacle => rfl
      | ok s' => exact ih s'

theorem mergeAll_twice (s : Settings) (layer : Value) (layers : List Value) :
    (s.mergeAll limit level (layer :: layer :: layers)).value =
      (s.mergeAll limit level (layer :: layers)).value := by
  rw [mergeAll_cons_value, mergeAll_cons_value]
  cases hmerge : (s.merge limit level layer).value with
  | error obstacle => rfl
  | ok r =>
      rcases merge_eq_ok_iff.mp hmerge with ⟨hwritable, rfl⟩
      change (mergeAll limit level (s.apply (heldBy layer)) (layer :: layers)).value = _
      rw [mergeAll_cons_value, merge_eq_ok_iff.mpr ⟨hwritable, apply_apply s (heldBy layer)⟩]

theorem complain_congr {fields fields' : Fields Value} {keys : List String}
    (h : ∀ key ∈ keys, Layer.given? fields key = Layer.given? fields' key) :
    Layer.complain limit fields keys = Layer.complain limit fields' keys := by
  induction keys with
  | nil => rfl
  | cons key keys ih =>
      rw [List.forall_mem_cons] at h
      rw [Layer.complain, Layer.complain, ih h.2]
      unfold Layer.misfit?
      rw [h.1]

theorem merge_congr {layer layer' : Value}
    (h : ∀ key ∈ Layer.logLevelKeys ++ Layer.includeBuiltinsKeys,
      layer.entry? key = layer'.entry? key) (s : Settings) :
    s.merge limit level layer = s.merge limit level layer' := by
  rw [List.forall_mem_append] at h
  have hgiven {key : String} (hkey : layer.entry? key = layer'.entry? key) :
      Layer.given? layer.members key = Layer.given? layer'.members key := by
    unfold Value.entry? at hkey
    unfold Layer.given?
    rw [hkey]
  have htext : Layer.lastText limit layer.members Layer.logLevelKeys =
      Layer.lastText limit layer'.members Layer.logLevelKeys := by
    unfold Layer.lastText
    rw [List.filterMap_congr fun key hkey => hgiven (h.1 key hkey)]
  have hflag : Layer.lastEntry layer.members flag? Layer.includeBuiltinsKeys =
      Layer.lastEntry layer'.members flag? Layer.includeBuiltinsKeys := by
    rw [lastEntry_eq, lastEntry_eq]
    exact congrArg (fun es => (es.filterMap flag?).getLast?) (List.filterMap_congr h.2)
  have hcomplain : Layer.complain limit layer.members
        (if level ≤ Log.Level.warning.number then Layer.includeBuiltinsKeys else []) =
      Layer.complain limit layer'.members
        (if level ≤ Log.Level.warning.number then Layer.includeBuiltinsKeys else []) := by
    apply complain_congr
    intro key hkey
    split at hkey
    · exact hgiven (h.2 key hkey)
    · cases hkey
  have hlayer : Layer.ofValue limit level layer = Layer.ofValue limit level layer' := by
    unfold Layer.ofValue
    rw [htext, hflag]
    dsimp only
    rw [hcomplain]
  unfold merge
  rw [hlayer]

theorem not_mem_includeBuiltinsKeys :
    ∀ key ∈ Layer.logLevelKeys, key ∉ Layer.includeBuiltinsKeys := by
  decide

theorem heldBy_eq (v : Value) :
    heldBy v =
      ⟨(Layer.logLevelKeys.filterMap fun key => (v.entry? key).bind level?).getLast?,
        (Layer.includeBuiltinsKeys.filterMap fun key => (v.entry? key).bind flag?).getLast?⟩ := by
  unfold heldBy
  rw [List.filterMap_filterMap, List.filterMap_filterMap]

theorem entry?_erase {layer layer' : Value} {key : String}
    (h : layer'.members = layer.members.erase key) (name : String) :
    layer'.entry? name = if name = key then none else layer.entry? name := by
  unfold Value.entry?
  rw [h, Fields.get?_erase]

theorem merge_erase {s r : Settings} {layer layer' : Value} {key : String} {e : Value}
    (hentry : layer.entry? key = some e)
    (hsilent : e = .null ∨ key ∈ Layer.includeBuiltinsKeys ∧ ∀ b, ¬StandsFor e b)
    (herase : layer'.members = layer.members.erase key)
    (h : (s.merge limit level layer).value = .ok r) :
    (s.merge limit level layer').value = .ok r := by
  have hfound {name : String} {e' : Value} (he' : layer'.entry? name = some e') :
      layer.entry? name = some e' := by
    rw [entry?_erase herase] at he'
    split at he'
    · cases he'
    · exact he'
  have hread {α : Type} (read : Value → Option α) (name : String)
      (hnone : name = key → read e = none) :
      (layer'.entry? name).bind read = (layer.entry? name).bind read := by
    rw [entry?_erase herase]
    split
    · rename_i hname
      rw [hname, hentry, Option.bind_some, hnone hname]
      rfl
    · rfl
  have hlevel : ∀ name ∈ Layer.logLevelKeys, name = key → level? e = none := by
    intro name hname heq
    rcases hsilent with rfl | ⟨hkey, -⟩
    · rfl
    · exact absurd hkey (not_mem_includeBuiltinsKeys key (heq ▸ hname))
  have hflag : flag? e = none := by
    rcases hsilent with rfl | ⟨-, hnone⟩
    · rfl
    · rw [Option.eq_none_iff_forall_ne_some]
      exact fun b hb => hnone b (flag?_eq_some_iff.mp hb)
  rcases merge_eq_ok_iff.mp h with ⟨hwritable, rfl⟩
  refine merge_eq_ok_iff.mpr ⟨⟨?_, ?_⟩, ?_⟩
  · exact fun name hname e' he' => hwritable.levels name hname e' (hfound he')
  · exact fun hlog name hname e' he' => hwritable.misfits hlog name hname e' (hfound he')
  · rw [heldBy_eq, heldBy_eq,
      List.filterMap_congr fun name hname => hread level? name (hlevel name hname),
      List.filterMap_congr fun name _ => hread flag? name fun _ => hflag]

theorem mergeAll_erase {s r : Settings} {before after : List Value} {layer layer' : Value}
    {key : String} {e : Value} (hentry : layer.entry? key = some e)
    (hsilent : e = .null ∨ key ∈ Layer.includeBuiltinsKeys ∧ ∀ b, ¬StandsFor e b)
    (herase : layer'.members = layer.members.erase key)
    (h : (s.mergeAll limit level (before ++ layer :: after)).value = .ok r) :
    (s.mergeAll limit level (before ++ layer' :: after)).value = .ok r := by
  rw [mergeAll_append] at h ⊢
  cases hbefore : (s.mergeAll limit level before).value with
  | error obstacle =>
      rw [hbefore] at h
      cases h
  | ok s' =>
      rw [hbefore] at h
      change (s'.mergeAll limit level (layer :: after)).value = .ok r at h
      change (s'.mergeAll limit level (layer' :: after)).value = .ok r
      rw [mergeAll, andThen_eq_ok_iff] at h ⊢
      rcases h with ⟨s'', hmerge, hafter⟩
      exact ⟨s'', merge_erase hentry hsilent herase hmerge, hafter⟩

theorem andThen_ok {ε α : Type} (a : Logged (Except ε α)) :
    (a.andThen fun x => { value := .ok x }) = a := by
  rcases a with ⟨log, value⟩
  cases value with
  | error e => rfl
  | ok x => simp [Logged.andThen]

theorem load_eq (files : FileTree) (root : Option String) (options : Value) :
    load files limit level root options =
      (Project.read files limit root).andThen fun fields =>
        Logged.mapError .value (mergeAll limit level {} [.table fields, options]) := by
  simp only [load, mergeAll, andThen_ok]

end Layers

/-!
# The law of layers
-/

/--
Merging layers succeeds exactly if all that has to be written out can be, and then each setting
is what the last entry for it says that says anything, or what it was at the start.  An entry
that says nothing may as well be missing.  Neither the order of the members of a layer, nor its
members under other keys, nor whether it is a table or an object have any influence, not even
on the log.  A layer that is merged again right away changes nothing.  Loading follows this law
for the project file and the options of the client, over the defaults.
-/
theorem last_entry_decides (limit level : Nat) (start : Settings) :
    (∀ layers r, (start.mergeAll limit level layers).value = .ok r ↔
      (∀ layer ∈ layers, Writable limit level layer) ∧
        LastSays NamesLevel start.logLevel (entries Layer.logLevelKeys layers) r.logLevel ∧
        LastSays StandsFor start.includeBuiltins (entries Layer.includeBuiltinsKeys layers)
          r.includeBuiltins) ∧
      (∀ before (layer layer' : Value) after key e r, layer.entry? key = some e →
        (e = .null ∨ key ∈ Layer.includeBuiltinsKeys ∧ ∀ b, ¬StandsFor e b) →
        layer'.members = layer.members.erase key →
        (start.mergeAll limit level (before ++ layer :: after)).value = .ok r →
        (start.mergeAll limit level (before ++ layer' :: after)).value = .ok r) ∧
      (∀ layer layer' : Value, layer.members.names.Nodup →
        List.Perm layer.members layer'.members →
        start.merge limit level layer = start.merge limit level layer') ∧
      (∀ layer layer' : Value,
        layer'.members = layer.members.filter (fun member =>
          (Layer.logLevelKeys ++ Layer.includeBuiltinsKeys).contains member.1) →
        start.merge limit level layer' = start.merge limit level layer) ∧
      (∀ before layer after,
        (start.mergeAll limit level (before ++ layer :: layer :: after)).value =
          (start.mergeAll limit level (before ++ layer :: after)).value) ∧
      (∀ files root options, load files limit level root options =
        (Project.read files limit root).andThen fun fields =>
          Logged.mapError .value (mergeAll limit level {} [.table fields, options])) := by
  refine ⟨?_, ?_, ?_, ?_, ?_, ?_⟩
  · intro layers r
    exact mergeAll_eq_ok_iff_lastSays
  · intro before layer layer' after key e r hentry hsilent herase h
    exact mergeAll_erase hentry hsilent herase h
  · intro layer layer' hnames hperm
    exact merge_congr (fun key _ => Fields.get?_of_perm hnames hperm key) start
  · intro layer layer' hmembers
    apply merge_congr
    intro key hkey
    unfold Value.entry?
    rw [hmembers]
    exact Fields.get?_filter hkey layer.members
  · intro before layer after
    rw [mergeAll_append, mergeAll_append]
    simp only [mergeAll_twice]
  · intro files root options
    exact load_eq files root options

def wideNumber : Value :=
  .int (Int.ofNat (Nat.pow 16 3600 - 1))

/-- A table, nothing, an object whose entries say nothing, and a list. -/
def unevenLayers : List Value :=
  [.table [("log_level", .text "debug"), ("include_builtins", .text " Off ")], .null,
    .object "namespace" [("includeBuiltins", .text "maybe"), ("include_builtins", wideNumber),
      ("logLevel", .null), ("flavour", .int 1)],
    .list [.bool true]]

theorem last_entry_decides_uneven :
    (mergeAll nestingLimit 30 {} unevenLayers).value = .ok ⟨some "debug", false⟩ ∧
      (∀ layer ∈ unevenLayers, Writable nestingLimit 30 layer) ∧
      LastSays NamesLevel none (entries Layer.logLevelKeys unevenLayers) (some "debug") ∧
      LastSays StandsFor true (entries Layer.includeBuiltinsKeys unevenLayers) false := by
  have hmerged : (mergeAll nestingLimit 30 {} unevenLayers).value = .ok ⟨some "debug", false⟩ := by
    decide +kernel
  exact ⟨hmerged, ((last_entry_decides nestingLimit 30 {}).1 unevenLayers _).mp hmerged⟩

theorem wide_number_stops_merging :
    NamesLevel wideNumber (some wideNumber.asText) ∧
      (mergeAll nestingLimit 30 {} [.table [("log_level", wideNumber)]]).value =
        .error .longInt := by
  refine ⟨.text ?_, by decide +kernel⟩
  intro hnull
  cases hnull

end Settings
end TypedAnt
