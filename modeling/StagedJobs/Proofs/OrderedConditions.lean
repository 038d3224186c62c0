import StagedJobs.Proofs.Construction

/-!
Conditions that are judged in order. A computation judged by them succeeds where all of them hold; where
one does not, it fails with what the first such one reports, whatever is wrong behind that one.
-/

namespace StagedJobs

open Outcomes

variable {ε δ α β : Type}

/-- A condition, and the errors that report that it does not hold. -/
structure Condition (ε : Type) where
  holds : Prop
  reports : ε → Prop

/-- A condition on a part, as the whole reports it. -/
def Condition.within (wrap : ε → δ) (c : Condition ε) : Condition δ where
  holds := c.holds
  reports d := ∃ e, c.reports e ∧ d = wrap e

/-- A condition on the result of a computation, which holds where there is no result. -/
def Condition.onResult (x : Except ε α) (c : α → Condition ε) : Condition ε where
  holds := ∀ a, x = .ok a → (c a).holds
  reports e := ∃ a, x = .ok a ∧ (c a).reports e

theorem Condition.onResult_of_eq_ok {x : Except ε α} {a : α} (h : x = .ok a)
    (c : α → Condition ε) : onResult x c = c a := by
  subst h
  simp [onResult]

/-- The error is reported by the first condition that does not hold. -/
def FirstFault (conditions : List (Condition ε)) (e : ε) : Prop :=
  ∃ before c after,
    conditions = before ++ c :: after ∧ (∀ b ∈ before, b.holds) ∧ ¬ c.holds ∧ c.reports e

/-- The conditions decide between success and failure, and the first that does not hold decides on
the error. -/
structure JudgedBy (result : Except ε α) (conditions : List (Condition ε)) : Prop where
  ok : (∃ a, result = .ok a) ↔ ∀ c ∈ conditions, c.holds
  error : ∀ e, result = .error e ↔ FirstFault conditions e

section FirstFault

variable {c : Condition ε} {cs ds : List (Condition ε)} {e : ε}

theorem not_firstFault_nil (e : ε) : ¬ FirstFault [] e := by
  rintro ⟨before, c, after, h, -⟩
  simp at h

theorem firstFault_cons_iff :
    FirstFault (c :: cs) e ↔ (¬ c.holds ∧ c.reports e) ∨ (c.holds ∧ FirstFault cs e) := by
  constructor
  · rintro ⟨before, fault, after, heq, hbefore, hfault⟩
    cases before with
    | nil =>
        obtain ⟨rfl, rfl⟩ : c = fault ∧ cs = after := by simpa using heq
        exact .inl hfault
    | cons first before =>
        obtain ⟨rfl, rfl⟩ : c = first ∧ cs = before ++ fault :: after := by simpa using heq
        exact .inr ⟨hbefore c (by simp), before, fault, after, rfl,
          fun b hb => hbefore b (by simp [hb]), hfault⟩
  · rintro (hfault | ⟨hc, before, fault, after, rfl, hbefore, hfault⟩)
    · exact ⟨[], c, cs, rfl, by simp, hfault⟩
    · exact ⟨c :: before, fault, after, rfl, by simpa using ⟨hc, hbefore⟩, hfault⟩

theorem firstFault_append_iff :
    FirstFault (cs ++ ds) e ↔
      FirstFault cs e ∨ ((∀ c ∈ cs, c.holds) ∧ FirstFault ds e) := by
  induction cs with
  | nil => simp [not_firstFault_nil]
  | cons c cs ih =>
      rw [List.cons_append, firstFault_cons_iff, firstFault_cons_iff, ih]
      simp only [List.mem_cons, forall_eq_or_imp]
      tauto

theorem firstFault_map_within_iff {wrap : ε → δ} {d : δ} :
    FirstFault (cs.map (·.within wrap)) d ↔ ∃ e, FirstFault cs e ∧ d = wrap e := by
  induction cs with
  | nil => simp [not_firstFault_nil]
  | cons c cs ih =>
      rw [List.map_cons, firstFault_cons_iff, ih]
      simp only [Condition.within, firstFault_cons_iff]
      constructor
      · rintro (⟨hc, e, hreport, rfl⟩ | ⟨hc, e, hfault, rfl⟩)
        · exact ⟨e, .inl ⟨hc, hreport⟩, rfl⟩
        · exact ⟨e, .inr ⟨hc, hfault⟩, rfl⟩
      · rintro ⟨e, ⟨hc, hreport⟩ | ⟨hc, hfault⟩, rfl⟩
        · exact .inl ⟨hc, e, hreport, rfl⟩
        · exact .inr ⟨hc, e, hfault, rfl⟩

end FirstFault

namespace JudgedBy

variable {x : Except ε α} {cs ds : List (Condition ε)}

theorem pure (a : α) : JudgedBy (ε := ε) (.ok a) [] where
  ok := by simp
  error e := by simp [not_firstFault_nil]

theorem single {holds : Prop} {reports : ε → Prop} (hok : (∃ a, x = .ok a) ↔ holds)
    (herror : ∀ e, x = .error e ↔ ¬ holds ∧ reports e) : JudgedBy x [⟨holds, reports⟩] where
  ok := by simpa using hok
  error e := by simpa [firstFault_cons_iff, not_firstFault_nil] using herror e

theorem passed {c : Condition ε} (hc : c.holds) (hx : JudgedBy x cs) : JudgedBy x (c :: cs) where
  ok := by simp [hx.ok, hc]
  error e := by simp [hx.error, firstFault_cons_iff, hc]

theorem fault {c : Condition ε} {e : ε} (hc : ¬ c.holds) (hreports : ∀ e', c.reports e' ↔ e' = e)
    (cs : List (Condition ε)) : JudgedBy (α := α) (.error e) (c :: cs) where
  ok := by simp [hc]
  error e' := by simp [firstFault_cons_iff, hc, hreports, eq_comm]

/-- One computation after another is judged by the conditions of the first and then by those of the
second, which may count on the success of the first. -/
theorem bind {f : α → Except ε β} (hx : JudgedBy x cs) (hf : ∀ a, x = .ok a → JudgedBy (f a) ds) :
    JudgedBy (x >>= f) (cs ++ ds) := by
  cases hresult : x with
  | error e =>
      have hfault : FirstFault cs e := (hx.error e).mp hresult
      have hnot : ¬ ∀ c ∈ cs, c.holds := by
        rw [← hx.ok, hresult]
        simp
      constructor
      · simp only [List.forall_mem_append, hnot, false_and, iff_false]
        rintro ⟨b, hb⟩
        simp [Bind.bind, Except.bind] at hb
      · intro e'
        rw [firstFault_append_iff, ← hx.error, hresult]
        simp [Bind.bind, Except.bind, hnot]
  | ok a =>
      have hholds : ∀ c ∈ cs, c.holds := hx.ok.mp ⟨a, hresult⟩
      have hnofault : ∀ e, ¬ FirstFault cs e := by
        intro e hfault
        rw [← hx.error, hresult] at hfault
        simp at hfault
      have hrest := hf a hresult
      constructor
      · rw [List.forall_mem_append, and_iff_right hholds]
        exact hrest.ok
      · intro e
        rw [firstFault_append_iff, or_iff_right (hnofault e), and_iff_right hholds]
        exact hrest.error e

theorem mapError {wrap : ε → δ} (hx : JudgedBy x cs) :
    JudgedBy (x.mapError wrap) (cs.map (·.within wrap)) where
  ok := by
    simp only [mapError_eq_ok, hx.ok, List.forall_mem_map]
    rfl
  error d := by
    rw [mapError_eq_error, firstFault_map_within_iff]
    simp only [hx.error, eq_comm]

theorem map {f : α → β} (hx : JudgedBy x cs) : JudgedBy (x.map f) cs := by
  have hbind : x.map f = x >>= fun a => .ok (f a) := by cases x <;> rfl
  rw [hbind, ← List.append_nil cs]
  exact hx.bind fun a _ => .pure (f a)

theorem mapM {f : α → Except ε β} {condition : α → Condition ε} {xs : List α}
    (hf : ∀ x, JudgedBy (f x) [condition x]) : JudgedBy (xs.mapM f) (xs.map condition) := by
  induction xs with
  | nil => exact .pure []
  | cons x xs ih =>
      rw [List.mapM_cons]
      have hrest : ∀ y, JudgedBy (do let ys ← xs.mapM f; return y :: ys) (xs.map condition ++ []) :=
        fun y => ih.bind fun ys _ => .pure (y :: ys)
      simp only [List.append_nil] at hrest
      exact (hf x).bind fun y _ => hrest y

theorem find? (atFault : α → Bool) (report : α → ε) (xs : List α) :
    JudgedBy (match xs.find? atFault with | some x => .error (report x) | none => .ok ())
      (xs.map fun x => ⟨atFault x = false, (· = report x)⟩) := by
  induction xs with
  | nil => exact .pure ()
  | cons x xs ih =>
      rw [List.find?_cons]
      cases hx : atFault x with
      | false => exact .passed hx ih
      | true => exact .fault (by simp [hx]) (fun _ => Iff.rfl) _

end JudgedBy

theorem judgedBy_ite {p : Prop} [Decidable p] {e : ε} :
    JudgedBy (if p then .ok () else .error e) [⟨p, (· = e)⟩] := by
  by_cases hp : p
  · rw [if_pos hp]
    exact .passed hp (.pure ())
  · rw [if_neg hp]
    exact .fault hp (fun _ => Iff.rfl) []

/-- Of two bounds that are both present, the upper one is not exceeded by the lower one. -/
def ordered (least greatest : Option α) (exceeds : α → α → Prop) (report : α → α → ε) : Condition ε where
  holds := ∀ l ∈ least, ∀ g ∈ greatest, ¬ exceeds l g
  reports e := ∃ l ∈ least, ∃ g ∈ greatest, e = report l g

theorem judgedBy_ordered (least greatest : Option α) (exceeds : α → α → Prop) [DecidableRel exceeds]
    (report : α → α → ε) :
    JudgedBy (match least, greatest with
      | some l, some g => if exceeds l g then .error (report l g) else .ok ()
      | _, _ => .ok ()) [ordered least greatest exceeds report] := by
  cases least with
  | none => exact .passed (by simp [ordered]) (.pure ())
  | some l =>
      cases greatest with
      | none => exact .passed (by simp [ordered]) (.pure ())
      | some g =>
          by_cases hexceeds : exceeds l g
          · simp only [if_pos hexceeds]
            exact .fault (by simp [ordered, hexceeds]) (fun e => by simp [ordered]) []
          · simp only [if_neg hexceeds]
            exact .passed (by simp [ordered, hexceeds]) (.pure ())

theorem checkIdentifier_judgedBy (kind : IdentifierKind) (name : String) :
    JudgedBy (checkIdentifier kind name)
      [⟨isIdentifier name = true, (· = .invalidIdentifier kind name)⟩] :=
  judgedBy_ite

theorem checkPolicy_judgedBy (scope : Scope) (policy : Policy) (value : Nat) :
    JudgedBy (checkPolicy scope policy value)
      [⟨policy.least ≤ value ∧ value ≤ policy.greatest, (· = .policyOutOfRange scope policy value)⟩] :=
  judgedBy_ite

theorem checkPolicy_judgedBy_ne_zero {scope : Scope} {policy : Policy} {value : Nat}
    (hleast : policy.least = 1) (hgreatest : policy.greatest = UInt32.size - 1)
    (hvalue : value < UInt32.size) :
    JudgedBy (checkPolicy scope policy value) [⟨value ≠ 0, (· = .policyOutOfRange scope policy 0)⟩] := by
  rw [checkPolicy, hleast, hgreatest]
  by_cases hzero : value = 0
  · subst hzero
    exact .fault (by simp) (fun _ => Iff.rfl) []
  · rw [if_pos ⟨Nat.one_le_iff_ne_zero.mpr hzero, Nat.le_pred_of_lt hvalue⟩]
    exact .passed hzero (.pure ())

/-- The names are pairwise distinct. Reported is the earliest parameter whose name has occurred. -/
def distinctNames (scope : Scope) (specs : List ParameterSpec) : Condition DefinitionError where
  holds := (specs.map (·.name)).Nodup
  reports e := ∃ before p after, specs = before ++ p :: after ∧ (before.map (·.name)).Nodup ∧
    p.name ∈ before.map (·.name) ∧ e = .duplicateParameter scope p.name

theorem ParameterSpec.firstRepeated?_go_eq_some_iff {seen : List String} {specs : List ParameterSpec}
    {name : String} :
    firstRepeated?.go seen specs = some name ↔
      ∃ before p after, specs = before ++ p :: after ∧ (before.map (·.name)).Nodup ∧
        (∀ b ∈ before, b.name ∉ seen) ∧ (p.name ∈ seen ∨ p.name ∈ before.map (·.name)) ∧
          p.name = name := by
  induction specs generalizing seen with
  | nil => simp [firstRepeated?.go]
  | cons s rest ih =>
      rw [firstRepeated?.go]
      by_cases hseen : s.name ∈ seen
      · rw [if_pos (List.contains_iff_mem.mpr hseen), Option.some.injEq]
        constructor
        · intro hname
          exact ⟨[], s, rest, rfl, .nil, by simp, .inl hseen, hname⟩
        · rintro ⟨before, p, after, heq, -, hnew, -, hname⟩
          cases before with
          | nil => rw [(List.cons.inj heq).1, hname]
          | cons b before =>
              have hb := hnew b List.mem_cons_self
              rw [← (List.cons.inj heq).1] at hb
              exact absurd hseen hb
      · rw [if_neg (mt List.contains_iff_mem.mp hseen), ih]
        constructor
        · rintro ⟨before, p, after, rfl, hnodup, hnew, hold, hname⟩
          refine ⟨s :: before, p, after, rfl, ?_, ?_, ?_, hname⟩
          · refine List.nodup_cons.mpr ⟨?_, hnodup⟩
            intro hmem
            obtain ⟨b, hb, hbname⟩ := List.mem_map.mp hmem
            exact hnew b hb (hbname ▸ List.mem_cons_self)
          · rintro b (_ | ⟨_, hb⟩)
            · exact hseen
            · exact fun hmem => hnew b hb (List.mem_cons_of_mem _ hmem)
          · simp only [List.mem_cons, List.map_cons] at hold ⊢
            tauto
        · rintro ⟨before, p, after, heq, hnodup, hnew, hold, hname⟩
          cases before with
          | nil =>
              obtain rfl := (List.cons.inj heq).1
              simp [hseen] at hold
          | cons b before =>
              obtain ⟨rfl, rfl⟩ := List.cons.inj heq
              obtain ⟨hfirst, hnodup⟩ := List.nodup_cons.mp hnodup
              refine ⟨before, p, after, rfl, hnodup, ?_, ?_, hname⟩
              · intro b hb hmem
                rcases List.mem_cons.mp hmem with hsame | hmem
                · exact hfirst (List.mem_map.mpr ⟨b, hb, hsame⟩)
                · exact hnew b (List.mem_cons_of_mem _ hb) hmem
              · simp only [List.mem_cons, List.map_cons] at hold ⊢
                tauto

theorem ParameterSpec.checkUnique_eq_error_iff {scope : Scope} {specs : List ParameterSpec}
    {e : DefinitionError} :
    checkUnique scope specs = .error e ↔ (distinctNames scope specs).reports e := by
  have hcheck : checkUnique scope specs = .error e ↔
      ∃ name, firstRepeated? specs = some name ∧ e = .duplicateParameter scope name := by
    rw [checkUnique]
    split
    · rename_i hname
      simp [hname, eq_comm]
    · rename_i hnone
      simp [hnone]
  rw [hcheck]
  simp only [firstRepeated?, firstRepeated?_go_eq_some_iff, List.not_mem_nil, not_false_eq_true,
    implies_true, true_and, false_or, distinctNames]
  constructor
  · rintro ⟨name, ⟨before, p, after, heq, hnodup, hold, rfl⟩, he⟩
    exact ⟨before, p, after, heq, hnodup, hold, he⟩
  · rintro ⟨before, p, after, heq, hnodup, hold, he⟩
    exact ⟨p.name, ⟨before, p, after, heq, hnodup, hold, rfl⟩, he⟩

theorem checkUnique_judgedBy (scope : Scope) (specs : List ParameterSpec) :
    JudgedBy (ParameterSpec.checkUnique scope specs) [distinctNames scope specs] := by
  have hok : (∃ u, ParameterSpec.checkUnique scope specs = .ok u) ↔
      (specs.map (·.name)).Nodup := by
    constructor
    · rintro ⟨⟨⟩, h⟩
      exact ParameterSpec.checkUnique_eq_ok_iff.mp h
    · intro hnodup
      exact ⟨(), ParameterSpec.checkUnique_eq_ok_iff.mpr hnodup⟩
  refine .single hok fun e => ?_
  rw [ParameterSpec.checkUnique_eq_error_iff, ← hok]
  refine iff_and_self.mpr fun hreports => ?_
  rw [ParameterSpec.checkUnique_eq_error_iff.mpr hreports]
  simp

end StagedJobs
