import TypedAnt.Fields

/-!
# Reading named fields back

What a list of named fields holds after one field has been set or erased.
-/

namespace TypedAnt
namespace Fields

variable {α : Type}

@[simp] theorem get?_nil (name : String) : get? ([] : Fields α) name = none := rfl

theorem get?_cons (key : String) (value : α) (rest : Fields α) (name : String) :
    get? ((key, value) :: rest) name = if name = key then some value else get? rest name := by
  by_cases h : name = key
  · simp [get?, h]
  · have hbeq : (name == key) = false := by
      simpa using h
    simp [get?, List.lookup_cons, hbeq, h]

theorem get?_set (fs : Fields α) (key : String) (value : α) (name : String) :
    (fs.set key value).get? name = if name = key then some value else fs.get? name := by
  induction fs with
  | nil =>
      rw [set, get?_cons]
  | cons field rest ih =>
      rcases field with ⟨first, old⟩
      by_cases hkey : first = key
      · rw [set, if_pos hkey, get?_cons, get?_cons, hkey]
        split <;> rfl
      · rw [set, if_neg hkey, get?_cons, get?_cons, ih]
        by_cases hname : name = first
        · simp only [hname, if_true, if_neg hkey]
        · simp only [if_neg hname]

theorem get?_erase (fs : Fields α) (key name : String) :
    (fs.erase key).get? name = if name = key then none else fs.get? name := by
  induction fs with
  | nil =>
      simp [erase]
  | cons field rest ih =>
      rcases field with ⟨first, value⟩
      by_cases hkey : first = key
      · have hdrop : erase ((first, value) :: rest) key = erase rest key := by
          simp [erase, hkey]
        rw [hdrop, ih, get?_cons, hkey]
        split <;> rfl
      · have hkeep : erase ((first, value) :: rest) key = (first, value) :: erase rest key := by
          simp [erase, hkey]
        rw [hkeep, get?_cons, get?_cons, ih]
        by_cases hname : name = first
        · simp only [hname, if_true, if_neg hkey]
        · simp only [if_neg hname]

theorem set_set (fs : Fields α) (key : String) (old new : α) :
    (fs.set key old).set key new = fs.set key new := by
  induction fs with
  | nil => simp [set]
  | cons field rest ih =>
      rcases field with ⟨first, value⟩
      by_cases hkey : first = key
      · simp [set, hkey]
      · simp [set, hkey, ih]

theorem set_get? {fs : Fields α} {key : String} {value : α} (h : fs.get? key = some value) :
    fs.set key value = fs := by
  induction fs with
  | nil => cases h
  | cons field rest ih =>
      rcases field with ⟨first, old⟩
      rw [get?_cons] at h
      by_cases hkey : key = first
      · rw [if_pos hkey, Option.some.injEq] at h
        rw [set, if_pos hkey.symm, h]
      · rw [if_neg hkey] at h
        rw [set, if_neg (Ne.symm hkey), ih h]

/-!
# Counting values

No name stands twice in a list that was built by setting fields, so that its entries are
counted as its names are.
-/

theorem names_cons (key : String) (value : α) (rest : Fields α) :
    names ((key, value) :: rest) = key :: names rest := rfl

@[simp] theorem names_append (fs more : Fields α) :
    names (fs ++ more) = fs.names ++ more.names :=
  List.map_append

theorem mem_names {fs : Fields α} {name : String} :
    name ∈ fs.names ↔ ∃ value, (name, value) ∈ fs := by
  simp [names]

theorem mem_names_set {fs : Fields α} {key name : String} {value : α} :
    name ∈ (fs.set key value).names ↔ name = key ∨ name ∈ fs.names := by
  induction fs with
  | nil => simp [set, names]
  | cons field rest ih =>
      rcases field with ⟨first, old⟩
      by_cases hkey : first = key
      · simp [set, hkey, names_cons]
      · rw [set, if_neg hkey, names_cons, names_cons, List.mem_cons, List.mem_cons, ih]
        exact or_left_comm

theorem mem_of_mem_set {fs : Fields α} {key : String} {value : α} {field : String × α}
    (h : field ∈ fs.set key value) : field = (key, value) ∨ field ∈ fs := by
  induction fs with
  | nil => exact Or.inl (List.mem_singleton.mp h)
  | cons first rest ih =>
      rcases first with ⟨first, old⟩
      rw [set] at h
      split at h
      · rename_i hkey
        rcases List.mem_cons.mp h with rfl | hmem
        · exact Or.inl (by rw [hkey])
        · exact Or.inr (List.mem_cons_of_mem _ hmem)
      · rcases List.mem_cons.mp h with rfl | hmem
        · exact Or.inr List.mem_cons_self
        · rcases ih hmem with hset | hmem
          · exact Or.inl hset
          · exact Or.inr (List.mem_cons_of_mem _ hmem)

theorem names_prefix_set (fs : Fields α) (key : String) (value : α) :
    fs.names <+: (fs.set key value).names := by
  induction fs with
  | nil => exact List.nil_prefix
  | cons field rest ih =>
      rcases field with ⟨first, old⟩
      by_cases hkey : first = key
      · exact ⟨[], by simp [set, hkey, names_cons]⟩
      · rw [set, if_neg hkey, names_cons, names_cons]
        exact (List.prefix_cons_inj first).mpr ih

theorem nodup_names_set {fs : Fields α} (h : fs.names.Nodup) (key : String) (value : α) :
    (fs.set key value).names.Nodup := by
  induction fs with
  | nil => simp [set, names]
  | cons field rest ih =>
      rcases field with ⟨first, old⟩
      rcases List.nodup_cons.mp h with ⟨hfirst, hrest⟩
      by_cases hkey : first = key
      · rw [set, if_pos hkey]
        exact h
      · rw [set, if_neg hkey, names_cons, List.nodup_cons, mem_names_set, not_or]
        exact ⟨⟨hkey, hfirst⟩, ih hrest⟩

theorem mem_erase {fs : Fields α} {key name : String} {value : α} :
    (key, value) ∈ fs.erase name ↔ (key, value) ∈ fs ∧ key ≠ name := by
  simp [erase]

theorem erase_of_not_mem_names {fs : Fields α} {name : String} (h : name ∉ fs.names) :
    fs.erase name = fs := by
  unfold erase
  rw [List.filter_eq_self]
  intro field hmem
  have hne : field.1 ≠ name := by
    rintro rfl
    exact h (List.mem_map.mpr ⟨field, hmem, rfl⟩)
  simpa using hne

theorem perm_cons_erase {fs : Fields α} (hnames : fs.names.Nodup) {name : String} {value : α}
    (h : (name, value) ∈ fs) : fs.Perm ((name, value) :: fs.erase name) := by
  rcases List.append_of_mem h with ⟨before, after, rfl⟩
  rw [names_append, names_cons, List.perm_middle.nodup_iff, List.nodup_cons, List.mem_append,
    not_or] at hnames
  have herase : erase (before ++ (name, value) :: after) name = before ++ after := by
    have hself : erase ((name, value) :: after) name = erase after name := by
      simp [erase]
    calc erase (before ++ (name, value) :: after) name
        = erase before name ++ erase ((name, value) :: after) name := List.filter_append ..
      _ = before ++ after := by
        rw [hself, erase_of_not_mem_names hnames.1.1, erase_of_not_mem_names hnames.1.2]
  rw [herase]
  exact List.perm_middle

theorem names_erase {fs : Fields α} (hnames : fs.names.Nodup) (name : String) :
    (fs.erase name).names = fs.names.erase name := by
  rw [hnames.erase_eq_filter]
  unfold erase names
  rw [List.filter_map]
  rfl

theorem nodup_names_erase {fs : Fields α} (h : fs.names.Nodup) (key : String) :
    (fs.erase key).names.Nodup :=
  h.sublist (List.filter_sublist.map Prod.fst)

def tally (test : α → Bool) (fs : Fields α) : Nat :=
  List.countP (fun field => test field.2) fs

theorem tally_cons (test : α → Bool) (field : String × α) (fs : Fields α) :
    tally test (field :: fs) = tally test fs + (test field.2).toNat := by
  unfold tally
  rw [List.countP_cons]
  cases test field.2 <;> rfl

theorem tally_set (test : α → Bool) (fs : Fields α) (key : String) (value : α) :
    tally test (fs.set key value) + ((fs.get? key).any test).toNat =
      tally test fs + (test value).toNat := by
  induction fs with
  | nil => simp [set, tally_cons]
  | cons field rest ih =>
      rcases field with ⟨first, old⟩
      by_cases hkey : first = key
      · simp only [set, if_pos hkey, tally_cons, get?_cons, if_pos hkey.symm, Option.any_some]
        omega
      · simp only [set, if_neg hkey, tally_cons, get?_cons, if_neg (Ne.symm hkey)]
        omega

theorem mem_of_get? {fs : Fields α} {name : String} {value : α} (h : fs.get? name = some value) :
    (name, value) ∈ fs := by
  rcases List.lookup_eq_some_iff.mp h with ⟨before, after, rfl, _⟩
  simp

theorem get?_of_mem {fs : Fields α} (hnames : fs.names.Nodup) {name : String} {value : α}
    (h : (name, value) ∈ fs) : fs.get? name = some value := by
  induction fs with
  | nil => cases h
  | cons field rest ih =>
      rcases field with ⟨first, old⟩
      rcases List.nodup_cons.mp hnames with ⟨hfirst, hrest⟩
      rw [get?_cons]
      rcases List.mem_cons.mp h with heq | hmem
      · cases heq
        rw [if_pos rfl]
      · have hne : name ≠ first := by
          rintro rfl
          exact hfirst (List.mem_map.mpr ⟨(name, value), hmem, rfl⟩)
        rw [if_neg hne]
        exact ih hrest hmem

theorem get?_of_perm {fs more : Fields α} (hnames : fs.names.Nodup) (hperm : List.Perm fs more)
    (name : String) : fs.get? name = more.get? name := by
  have hmore : more.names.Nodup := (hperm.map Prod.fst).nodup_iff.mp hnames
  apply Option.ext
  intro value
  constructor
  · intro h
    exact get?_of_mem hmore (hperm.mem_iff.mp (mem_of_get? h))
  · intro h
    exact get?_of_mem hnames (hperm.mem_iff.mpr (mem_of_get? h))

theorem get?_filter {name : String} {names : List String} (hname : name ∈ names) (fs : Fields α) :
    get? (List.filter (fun field => names.contains field.1) fs) name = fs.get? name := by
  induction fs with
  | nil => rfl
  | cons field rest ih =>
      rcases field with ⟨key, value⟩
      by_cases hkey : key ∈ names
      · rw [List.filter_cons_of_pos (by simpa using hkey), get?_cons, get?_cons, ih]
      · have hne : ¬name = key := fun heq => hkey (heq ▸ hname)
        rw [List.filter_cons_of_neg (by simpa using hkey), ih, get?_cons, if_neg hne]

theorem mem_names_iff {fs : Fields α} {name : String} :
    name ∈ fs.names ↔ ∃ value, fs.get? name = some value := by
  induction fs with
  | nil => simp [names]
  | cons field rest ih =>
      rcases field with ⟨first, old⟩
      rw [names_cons, List.mem_cons, get?_cons, ih]
      by_cases hfirst : name = first
      · simp [hfirst]
      · simp [hfirst]

theorem mem_names_setAll {fs more : Fields α} {name : String} :
    name ∈ (fs.setAll more).names ↔ name ∈ fs.names ∨ name ∈ more.names := by
  induction more generalizing fs with
  | nil => simp [setAll, names]
  | cons field rest ih =>
      rcases field with ⟨key, value⟩
      have hrest : (fs.setAll ((key, value) :: rest)) = (fs.set key value).setAll rest := rfl
      rw [hrest, ih, mem_names_set, names_cons, List.mem_cons, or_left_comm, or_assoc]

theorem nodup_names_setAll {fs : Fields α} (h : fs.names.Nodup) (more : Fields α) :
    (fs.setAll more).names.Nodup := by
  induction more generalizing fs with
  | nil => exact h
  | cons field rest ih => exact ih (nodup_names_set h field.1 field.2)

theorem tally_pos_iff {test : α → Bool} {fs : Fields α} (hnames : fs.names.Nodup) :
    0 < tally test fs ↔ ∃ name value, fs.get? name = some value ∧ test value = true := by
  unfold tally
  rw [List.countP_pos_iff]
  constructor
  · intro h
    rcases h with ⟨⟨name, value⟩, hmem, htest⟩
    exact ⟨name, value, get?_of_mem hnames hmem, htest⟩
  · intro h
    rcases h with ⟨name, value, hget, htest⟩
    exact ⟨(name, value), mem_of_get? hget, htest⟩

theorem eq_of_tally_le_one {test : α → Bool} {fs : Fields α} (hnames : fs.names.Nodup)
    (h : tally test fs ≤ 1) {name other : String} {value value' : α}
    (hname : fs.get? name = some value) (hother : fs.get? other = some value')
    (htest : test value = true) (htest' : test value' = true) : other = name := by
  induction fs with
  | nil => cases hname
  | cons field rest ih =>
      rcases field with ⟨first, old⟩
      have hrest := (List.nodup_cons.mp hnames).2
      rw [tally_cons] at h
      rw [get?_cons] at hname hother
      -- Another name that passes has its value further back and adds to the count there.
      have hpos : ∀ {other value}, get? rest other = some value → test value = true →
          0 < tally test rest := by
        intro other value hget hpass
        exact (tally_pos_iff hrest).mpr ⟨other, value, hget, hpass⟩
      by_cases hfirst : name = first
      · by_cases hsecond : other = first
        · rw [hfirst, hsecond]
        · rw [if_pos hfirst] at hname
          rw [if_neg hsecond] at hother
          cases hname
          have hcount := hpos hother htest'
          rw [htest, Bool.toNat_true] at h
          omega
      · rw [if_neg hfirst] at hname
        by_cases hsecond : other = first
        · rw [if_pos hsecond] at hother
          cases hother
          have hcount := hpos hname htest
          rw [htest', Bool.toNat_true] at h
          omega
        · rw [if_neg hsecond] at hother
          exact ih hrest (by omega) hname hother

/-!
# Setting many fields
-/

theorem setAll_cons (fs : Fields α) (key : String) (value : α) (rest : Fields α) :
    fs.setAll ((key, value) :: rest) = (fs.set key value).setAll rest := rfl

theorem set_of_not_mem_names {fs : Fields α} {key : String} (h : key ∉ fs.names) (value : α) :
    fs.set key value = fs ++ [(key, value)] := by
  induction fs with
  | nil => rfl
  | cons field rest ih =>
      rcases field with ⟨first, old⟩
      rw [names_cons, List.mem_cons, not_or] at h
      rw [set, if_neg (Ne.symm h.1), ih h.2]
      rfl

theorem set_comm {fs : Fields α} {key other : String} (hne : other ≠ key) (h : key ∈ fs.names)
    (value value' : α) :
    (fs.set other value').set key value = (fs.set key value).set other value' := by
  induction fs with
  | nil => cases h
  | cons field rest ih =>
      rcases field with ⟨first, old⟩
      by_cases hkey : first = key
      · subst hkey
        simp [set, Ne.symm hne]
      · have hrest : key ∈ names rest := by
          simpa [names_cons, Ne.symm hkey] using h
        by_cases hother : first = other
        · subst hother
          simp [set, hkey]
        · simp [set, hkey, hother, ih hrest]

theorem set_setAll {fs more : Fields α} {key : String} (h : key ∈ fs.names)
    (hmore : key ∉ more.names) (value : α) :
    (fs.setAll more).set key value = (fs.set key value).setAll more := by
  induction more generalizing fs with
  | nil => rfl
  | cons field rest ih =>
      rcases field with ⟨first, old⟩
      rw [names_cons, List.mem_cons, not_or] at hmore
      have hmem : key ∈ (fs.set first old).names := mem_names_set.mpr (Or.inr h)
      rw [setAll_cons, setAll_cons, ih hmem hmore.2, set_comm (Ne.symm hmore.1) h]

theorem setAll_set (fs : Fields α) {more : Fields α} (hmore : more.names.Nodup) (key : String)
    (value : α) : fs.setAll (more.set key value) = (fs.setAll more).set key value := by
  induction more generalizing fs with
  | nil => rfl
  | cons field rest ih =>
      rcases field with ⟨first, old⟩
      rcases List.nodup_cons.mp hmore with ⟨hfirst, hrest⟩
      by_cases hkey : first = key
      · subst hkey
        have hmem : first ∈ (fs.set first old).names := mem_names_set.mpr (Or.inl rfl)
        rw [set, if_pos rfl, setAll_cons, setAll_cons, set_setAll hmem hfirst, set_set]
      · rw [set, if_neg hkey, setAll_cons, setAll_cons, ih (fs.set first old) hrest]

theorem get?_setAll (fs : Fields α) {more : Fields α} (hmore : more.names.Nodup) (name : String) :
    (fs.setAll more).get? name = (more.get? name).or (fs.get? name) := by
  induction more generalizing fs with
  | nil => rfl
  | cons field rest ih =>
      rcases field with ⟨key, value⟩
      rcases List.nodup_cons.mp hmore with ⟨hkey, hrest⟩
      rw [setAll_cons, ih (fs.set key value) hrest, get?_set, get?_cons]
      by_cases hname : name = key
      · have hnone : get? rest name = none := by
          rw [← Option.not_isSome_iff_eq_none, Option.isSome_iff_exists, ← mem_names_iff, hname]
          exact hkey
        rw [if_pos hname, if_pos hname, hnone]
        rfl
      · rw [if_neg hname, if_neg hname]

theorem setAll_of_nodup {fs more : Fields α} (h : (fs.names ++ more.names).Nodup) :
    fs.setAll more = fs ++ more := by
  induction more generalizing fs with
  | nil => exact (List.append_nil fs).symm
  | cons field rest ih =>
      rcases field with ⟨key, value⟩
      have hkey : key ∉ fs.names := by
        intro hmem
        exact (List.nodup_append.mp h).2.2 key hmem key List.mem_cons_self rfl
      rw [setAll_cons, set_of_not_mem_names hkey, ih]
      · rw [List.append_assoc]
        rfl
      · rw [names_append, List.append_assoc]
        exact h

theorem setAll_eq_self {fs more : Fields α}
    (h : ∀ field ∈ more, fs.get? field.1 = some field.2) : fs.setAll more = fs := by
  induction more with
  | nil => rfl
  | cons field rest ih =>
      rcases List.forall_mem_cons.mp h with ⟨hfield, hrest⟩
      rw [setAll_cons, set_get? hfield, ih hrest]

theorem setAll_setAll (fs : Fields α) {more : Fields α} (hmore : more.names.Nodup) :
    (fs.setAll more).setAll more = fs.setAll more := by
  apply setAll_eq_self
  intro field hfield
  rw [get?_setAll fs hmore, get?_of_mem hmore hfield]
  rfl

/-!
# Names in their order

A name stands where it was set first.
-/

theorem names_set_of_mem {fs : Fields α} {key : String} (h : key ∈ fs.names) (value : α) :
    (fs.set key value).names = fs.names := by
  induction fs with
  | nil => cases h
  | cons field rest ih =>
      rcases field with ⟨first, old⟩
      by_cases hkey : first = key
      · rw [set, if_pos hkey, names_cons, names_cons]
      · have hrest : key ∈ names rest := by
          simpa [names_cons, Ne.symm hkey] using h
        rw [set, if_neg hkey, names_cons, names_cons, ih hrest]

/-- Names that are new come behind the old ones, each where it stands first. -/
theorem names_setAll (fs more : Fields α) :
    (fs.setAll more).names = fs.names ++ (more.names.removeAll fs.names).eraseDups := by
  induction more generalizing fs with
  | nil => exact (List.append_nil _).symm
  | cons field rest ih =>
      rcases field with ⟨key, value⟩
      rw [setAll_cons, ih, names_cons, List.cons_removeAll]
      by_cases hkey : key ∈ fs.names
      · rw [names_set_of_mem hkey, if_neg (by simpa using hkey)]
      · have hmore : (names rest).removeAll (fs.names ++ [key]) =
            ((names rest).removeAll fs.names).filter fun name => !name == key := by
          unfold List.removeAll
          rw [List.filter_filter]
          apply List.filter_congr
          intro name _
          by_cases hname : name = key <;> simp [hname]
        rw [set_of_not_mem_names hkey, names_append, if_pos (by simpa using hkey),
          List.eraseDups_cons, ← hmore, List.append_assoc]
        rfl

end Fields
end TypedAnt
