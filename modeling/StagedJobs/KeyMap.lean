namespace StagedJobs

/-- A finite map with string keys, held as one list in ascending order of them. Two maps with the same
look-ups are equal, so "the same map" is plain equality. -/
structure KeyMap (α : Type) where
  entries : List (String × α)
  ascending : entries.Pairwise (·.1 < ·.1)
deriving DecidableEq

namespace KeyMap

variable {α : Type}

/-- The value of the first entry of a key. -/
def find? (key : String) : List (String × α) → Option α
  | [] => none
  | (k, v) :: rest => if k = key then some v else find? key rest

/-- Puts an entry at its place among ascending ones, over an earlier entry of the same key. -/
def put (key : String) (value : α) : List (String × α) → List (String × α)
  | [] => [(key, value)]
  | (k, v) :: rest =>
    if key < k then (key, value) :: (k, v) :: rest
    else if key = k then (key, value) :: rest
    else (k, v) :: put key value rest

theorem mem_put {key : String} {value : α} {es : List (String × α)} {e : String × α}
    (h : e ∈ put key value es) : e = (key, value) ∨ e ∈ es := by
  induction es with
  | nil => simpa [put] using h
  | cons kv rest ih =>
    simp only [put] at h
    split at h
    · simpa using h
    · split at h
      · rcases List.mem_cons.mp h with h | h
        · exact .inl h
        · exact .inr (List.mem_cons_of_mem _ h)
      · rcases List.mem_cons.mp h with h | h
        · exact .inr (h ▸ List.mem_cons_self)
        · exact (ih h).imp id (List.mem_cons_of_mem _)

theorem pairwise_put (key : String) (value : α) {es : List (String × α)}
    (h : es.Pairwise (·.1 < ·.1)) : (put key value es).Pairwise (·.1 < ·.1) := by
  induction es with
  | nil => simp [put]
  | cons kv rest ih =>
    obtain ⟨hlt, hrest⟩ := List.pairwise_cons.mp h
    simp only [put]
    split
    · rename_i hkey
      refine List.pairwise_cons.mpr ⟨fun e he => ?_, h⟩
      rcases List.mem_cons.mp he with rfl | he
      · exact hkey
      · exact String.lt_trans hkey (hlt e he)
    · split
      · rename_i hkey
        exact List.pairwise_cons.mpr ⟨fun e he => hkey ▸ hlt e he, hrest⟩
      · rename_i hnot hne
        refine List.pairwise_cons.mpr ⟨fun e he => ?_, ih hrest⟩
        rcases mem_put he with rfl | he
        · exact Std.lt_of_le_of_ne (String.not_lt.mp hnot) (Ne.symm hne)
        · exact hlt e he

theorem find?_put (key k : String) (value : α) (es : List (String × α)) :
    find? k (put key value es) = if key = k then some value else find? k es := by
  induction es with
  | nil => simp [put, find?]
  | cons kv rest ih =>
    simp only [put]
    split
    · simp [find?]
    · split
      · rename_i hkey
        by_cases hk : key = k <;> simp_all [find?]
      · rename_i hne
        by_cases hk : key = k
        · subst hk
          simp [find?, ih, Ne.symm hne]
        · simp [find?, ih, hk]

def empty : KeyMap α := ⟨[], .nil⟩

/-- The map with `key` holding `value`. -/
def insert (m : KeyMap α) (key : String) (value : α) : KeyMap α :=
  ⟨put key value m.entries, pairwise_put key value m.ascending⟩

def get? (m : KeyMap α) (key : String) : Option α := find? key m.entries

/-- The map of a list of entries; the last entry of a key wins. -/
def ofList (es : List (String × α)) : KeyMap α :=
  es.foldl (fun m e => m.insert e.1 e.2) empty

def keys (m : KeyMap α) : List String := m.entries.map (·.1)

def contains (m : KeyMap α) (key : String) : Bool := (m.get? key).isSome

def size (m : KeyMap α) : Nat := m.entries.length

def isEmpty (m : KeyMap α) : Bool := m.entries.isEmpty

@[simp] theorem get?_empty (key : String) : (empty : KeyMap α).get? key = none := rfl

@[simp] theorem get?_insert (m : KeyMap α) (key k : String) (value : α) :
    (m.insert key value).get? k = if key = k then some value else m.get? k :=
  find?_put key k value m.entries

private theorem find?_eq_none_of_lt {key : String} {l : List (String × α)}
    (h : ∀ e ∈ l, key < e.1) : find? key l = none := by
  induction l with
  | nil => rfl
  | cons kv rest ih =>
    have hne : kv.1 ≠ key := fun heq => String.lt_irrefl key (heq ▸ h kv List.mem_cons_self)
    simp only [find?, if_neg hne]
    exact ih fun e he => h e (List.mem_cons_of_mem _ he)

private theorem entries_eq_of_find? {es fs : List (String × α)} (hes : es.Pairwise (·.1 < ·.1))
    (hfs : fs.Pairwise (·.1 < ·.1)) (h : ∀ k, find? k es = find? k fs) : es = fs := by
  induction es generalizing fs with
  | nil =>
    cases fs with
    | nil => rfl
    | cons f fs => simpa [find?] using h f.1
  | cons e es ih =>
    cases fs with
    | nil => simpa [find?] using h e.1
    | cons f fs =>
      obtain ⟨he, hes⟩ := List.pairwise_cons.mp hes
      obtain ⟨hf, hfs⟩ := List.pairwise_cons.mp hfs
      have hkey : e.1 = f.1 := by
        rcases Std.lt_trichotomy e.1 f.1 with hlt | heq | hlt
        · have hnone := find?_eq_none_of_lt (l := f :: fs) fun g hg => by
            rcases List.mem_cons.mp hg with rfl | hg
            · exact hlt
            · exact String.lt_trans hlt (hf g hg)
          have := h e.1
          rw [hnone] at this
          simp [find?] at this
        · exact heq
        · have hnone := find?_eq_none_of_lt (l := e :: es) fun g hg => by
            rcases List.mem_cons.mp hg with rfl | hg
            · exact hlt
            · exact String.lt_trans hlt (he g hg)
          have := h f.1
          rw [hnone] at this
          simp [find?] at this
      have hvalue : e.2 = f.2 := by
        have := h e.1
        simpa [find?, hkey] using this
      have hrest : es = fs := ih hes hfs fun k => by
        by_cases hk : e.1 = k
        · rw [find?_eq_none_of_lt fun g hg => hk ▸ he g hg,
            find?_eq_none_of_lt fun g hg => hk ▸ hkey ▸ hf g hg]
        · have hk' : f.1 ≠ k := hkey ▸ hk
          simpa [find?, hk, hk'] using h k
      rw [hrest, Prod.ext hkey hvalue]

theorem eq_of_get? {m n : KeyMap α} (h : ∀ k, m.get? k = n.get? k) : m = n := by
  cases m with | mk es hes =>
  cases n with | mk fs hfs =>
  simp only [mk.injEq]
  exact entries_eq_of_find? hes hfs h

theorem ofList_concat (es : List (String × α)) (e : String × α) :
    ofList (es ++ [e]) = (ofList es).insert e.1 e.2 := by
  rw [ofList, List.foldl_append]
  rfl

theorem put_of_forall_lt {key : String} {value : α} {es : List (String × α)}
    (h : ∀ e ∈ es, e.1 < key) : put key value es = es ++ [(key, value)] := by
  induction es with
  | nil => rfl
  | cons kv rest ih =>
    have hlt : kv.1 < key := h kv List.mem_cons_self
    have hne : key ≠ kv.1 := fun heq => String.lt_irrefl key (heq ▸ hlt)
    rw [put, if_neg (String.lt_asymm hlt), if_neg hne, ih fun e he => h e (List.mem_cons_of_mem _ he)]
    rfl

theorem entries_ofList {es : List (String × α)} (h : es.Pairwise (·.1 < ·.1)) :
    (ofList es).entries = es := by
  rw [← List.reverse_reverse es] at h ⊢
  generalize es.reverse = rs at h
  induction rs with
  | nil => rfl
  | cons e rest ih =>
    rw [List.reverse_cons, List.pairwise_append] at h
    have hlast : ∀ e' ∈ rest.reverse, e'.1 < e.1 := fun e' he => h.2.2 e' he e List.mem_cons_self
    rw [List.reverse_cons, ofList_concat]
    exact (congrArg (put e.1 e.2) (ih h.1)).trans (put_of_forall_lt hlast)

end KeyMap

end StagedJobs
