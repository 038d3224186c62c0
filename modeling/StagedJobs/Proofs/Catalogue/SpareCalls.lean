import StagedJobs.Proofs.Catalogue.RecordedCalls
import StagedJobs.Proofs.Catalogue.FurtherLines

/-!
How many calls a reading takes. A reading that is given the steps it needs starts with a budget of calls
and hands on what it leaves of it; two calls for each character of the text always do. What makes this a
matter of the whole text is that a part may be tried and left out: its calls have then been spent on
characters that are still ahead. But it is tried at its mark only, and no entry is followed by such a
mark, so all that is left to be read after it is the failure.
-/

namespace StagedJobs.Catalogue

/-- The reading `x` comes to `a` before its steps run out, by calls further and further on in the text,
and it leaves `spare` of a budget of calls. -/
def Completes {α : Type} (x : Recorded α) (a : α) (spare budget : Nat) : Prop :=
  ∃ calls, x.run = some (a, calls) ∧ (∀ call ∈ calls, call.caller.Precedes call.callee) ∧
    calls.length + spare ≤ budget

namespace Completes

variable {α β : Type} {spare mid budget : Nat}

theorem pure (a : α) (h : spare ≤ budget) : Completes (Pure.pure a) a spare budget :=
  ⟨[], rfl, by simp, by simpa using h⟩

theorem mono {x : Recorded α} {a : α} {spare' budget' : Nat} (h : Completes x a spare budget)
    (hspare : spare' ≤ spare) (hbudget : budget ≤ budget') : Completes x a spare' budget' := by
  obtain ⟨calls, hrun, hcalls, hlength⟩ := h
  exact ⟨calls, hrun, hcalls, by omega⟩

theorem add {x : Recorded α} {a : α} (h : Completes x a spare budget) (k : Nat) :
    Completes x a (spare + k) (budget + k) := by
  obtain ⟨calls, hrun, hcalls, hlength⟩ := h
  exact ⟨calls, hrun, hcalls, by omega⟩

theorem bind {x : Recorded α} {a : α} {f : α → Recorded β} {b : β}
    (hx : Completes x a mid budget) (hf : Completes (f a) b spare mid) :
    Completes (x >>= f) b spare budget := by
  obtain ⟨calls, hrun, hcalls, hlength⟩ := hx
  obtain ⟨more, hmore, hmoreCalls, hmoreLength⟩ := hf
  refine ⟨calls ++ more, ?_, ?_, ?_⟩
  · change (x.run >>= fun (a, w₁) => (fun (b, w₂) => (b, w₁ ++ w₂)) <$> (f a).run) = _
    rw [hrun]
    change (fun (b, w₂) => (b, calls ++ w₂)) <$> (f a).run = _
    rw [hmore]
    rfl
  · intro call hcall
    rcases List.mem_append.mp hcall with hcall | hcall
    · exact hcalls call hcall
    · exact hmoreCalls call hcall
  · rw [List.length_append]
    omega

theorem called {caller callee : Reading} (h : caller.Precedes callee) (hspare : spare < budget) :
    Completes (Catalogue.called caller callee) () spare budget := by
  refine ⟨[⟨caller, callee⟩], rfl, ?_, ?_⟩
  · intro call hcall
    obtain rfl := List.mem_singleton.mp hcall
    exact h
  · rw [List.length_singleton, Nat.add_comm]
    exact hspare

theorem optionT_bind {x : OptionT Recorded α} {o : Option α} {f : α → OptionT Recorded β}
    {g : α → Option β} (hx : Completes x.run o mid budget) (hnone : o = none → spare ≤ mid)
    (hsome : ∀ a, o = some a → Completes (f a).run (g a) spare mid) :
    Completes (x >>= f).run (o >>= g) spare budget := by
  rw [OptionT.run_bind]
  apply bind hx
  cases o with
  | none => exact pure none (hnone rfl)
  | some a => exact hsome a rfl

theorem optionT_lift_bind {x : Recorded α} {a : α} {f : α → OptionT Recorded β} {o : Option β}
    (hx : Completes x a mid budget) (hf : Completes (f a).run o spare mid) :
    Completes (liftM x >>= f).run o spare budget := by
  have hlift : Completes (x >>= fun a => Pure.pure (some a)) (some a) mid budget :=
    bind hx (pure (some a) (Nat.le_refl mid))
  rw [OptionT.run_bind]
  exact bind hlift hf

theorem exceptT_bind {x : ExceptT Failure Recorded α} {r : Except Failure α}
    {f : α → ExceptT Failure Recorded β} {g : α → Except Failure β}
    (hx : Completes x.run r mid budget) (herror : ∀ e, r = .error e → spare ≤ mid)
    (hok : ∀ a, r = .ok a → Completes (f a).run (g a) spare mid) :
    Completes (x >>= f).run (r >>= g) spare budget := by
  rw [ExceptT.run_bind]
  apply bind hx
  cases r with
  | error e => exact pure (Except.error e) (herror e rfl)
  | ok a => exact hok a rfl

theorem exceptT_lift_bind {x : Recorded α} {a : α} {f : α → ExceptT Failure Recorded β}
    {r : Except Failure β} (hx : Completes x a mid budget) (hf : Completes (f a).run r spare mid) :
    Completes (liftM x >>= f).run r spare budget := by
  obtain ⟨calls, hrun, hcalls, hlength⟩ := hx
  have hlift : Completes (Except.ok <$> x : Recorded (Except Failure α)) (.ok a) mid budget := by
    refine ⟨calls, ?_, hcalls, hlength⟩
    change (fun (a, w) => (Except.ok a, w)) <$> x.run = _
    rw [hrun]
    rfl
  exact bind hlift hf

end Completes

/-- The calls that the text ahead may take: two for each character, but none if the mark ahead is of a
part that has been tried in vain, since then there is nothing to come but the failure. -/
def callsAhead (tried cs : List Char) : Nat :=
  match skipInline cs with
  | [] => 2 * cs.length
  | c :: _ => if c ∈ tried then 0 else 2 * cs.length

section CallsAhead

variable {tried cs : List Char}

@[simp] theorem callsAhead_nil (cs : List Char) : callsAhead [] cs = 2 * cs.length := by
  rw [callsAhead]
  split <;> simp

theorem callsAhead_of_mem {rest : List Char} {c : Char} (hc : c ∈ tried)
    (hskip : skipInline cs = c :: rest) : callsAhead tried cs = 0 := by
  simp [callsAhead, hskip, hc]

theorem callsAhead_of_notMem (h : ∀ c ∈ (skipInline cs).head?, c ∉ tried) :
    callsAhead tried cs = 2 * cs.length := by
  rw [callsAhead]
  split
  case h_1 => rfl
  case h_2 c rest hskip => rw [if_neg (h c (by simp [hskip]))]

theorem callsAhead_cons_of_ne {mark : Char} (h : ∀ rest, skipInline cs ≠ mark :: rest) :
    callsAhead (mark :: tried) cs = callsAhead tried cs := by
  rw [callsAhead, callsAhead]
  cases hskip : skipInline cs with
  | nil => rfl
  | cons c rest =>
      have hne : c ≠ mark := by
        rintro rfl
        exact h rest hskip
      simp [hne]

theorem callsAhead_anti {more : List Char} (h : ∀ c ∈ tried, c ∈ more) (cs : List Char) :
    callsAhead more cs ≤ callsAhead tried cs := by
  rw [callsAhead, callsAhead]
  cases skipInline cs with
  | nil => exact Nat.le_refl _
  | cons c rest =>
      by_cases hc : c ∈ tried
      · simp [hc, h c hc]
      · simp only [hc, if_false]
        split <;> omega

theorem callsAhead_le (tried cs : List Char) : callsAhead tried cs ≤ 2 * cs.length := by
  rw [← callsAhead_nil cs]
  exact callsAhead_anti (by simp) cs

/-- What a reading has to leave: the calls of the text ahead and one more, if it has found anything. -/
def spared {α : Type} (tried : List Char) : Option (α × List Char) → Nat
  | none => 0
  | some (_, rest) => callsAhead tried rest + 1

end CallsAhead

/-- The reading `x` finds `o`, and leaves the calls that the text behind it may take. -/
def Finds {α : Type} (x : OptionT Recorded (α × List Char)) (o : Option (α × List Char))
    (budget : Nat) : Prop :=
  Completes x.run o (spared [] o) budget

namespace Finds

variable {α β : Type} {budget : Nat}

theorem mono {x : OptionT Recorded (α × List Char)} {o : Option (α × List Char)} {budget' : Nat}
    (h : Finds x o budget) (hbudget : budget ≤ budget') : Finds x o budget' :=
  Completes.mono h (Nat.le_refl _) hbudget

theorem found? {o : Option (α × List Char)}
    (h : ∀ a rest, o = some (a, rest) → 2 * rest.length + 1 ≤ budget) :
    Finds (Catalogue.found? o) o budget := by
  apply Completes.pure
  cases o with
  | none => exact Nat.zero_le _
  | some found => simpa [spared] using h found.1 found.2 rfl

theorem pure (a : α) {rest : List Char} (h : 2 * rest.length + 1 ≤ budget) :
    Finds (Pure.pure (a, rest)) (some (a, rest)) budget :=
  Completes.pure _ (by simpa [spared] using h)

theorem failure : Finds (failure : OptionT Recorded (α × List Char)) none budget :=
  Completes.pure _ (Nat.zero_le _)

theorem bind {x : OptionT Recorded (α × List Char)} {o : Option (α × List Char)}
    {f : α × List Char → OptionT Recorded (β × List Char)}
    {g : α × List Char → Option (β × List Char)} (hx : Finds x o budget)
    (hf : ∀ a rest, o = some (a, rest) → Finds (f (a, rest)) (g (a, rest)) (2 * rest.length + 1)) :
    Finds (x >>= f) (o >>= g) budget := by
  apply Completes.optionT_bind hx
  · rintro rfl
    exact Nat.le_refl 0
  · rintro ⟨a, rest⟩ rfl
    have hf := hf a rest rfl
    rw [← callsAhead_nil rest] at hf
    exact hf

theorem called {caller callee : Reading} (h : caller.Precedes callee) {spare : Nat}
    (hspare : spare < budget) {x : OptionT Recorded (α × List Char)} {o : Option (α × List Char)}
    (hx : Finds x o spare) : Finds (do Catalogue.called caller callee; x) o budget :=
  Completes.optionT_lift_bind (.called h hspare) hx

end Finds

/-- The reading `x` yields `r`. If it has read something, it leaves the calls that the text behind it
may take when the parts with the marks `tried` have been tried before it. -/
def Yields {α : Type} (tried : List Char) (x : ExceptT Failure Recorded (α × List Char))
    (r : Except Failure (α × List Char)) (budget : Nat) : Prop :=
  Completes x.run r (spared tried r.toOption) budget

namespace Yields

variable {α β γ : Type} {tried : List Char} {budget : Nat}

theorem mono {x : ExceptT Failure Recorded (α × List Char)} {r : Except Failure (α × List Char)}
    {budget' : Nat} (h : Yields tried x r budget) (hbudget : budget ≤ budget') :
    Yields tried x r budget' :=
  Completes.mono h (Nat.le_refl _) hbudget

theorem ok (a : α) {rest : List Char} (h : callsAhead tried rest + 1 ≤ budget) :
    Yields tried (Pure.pure (a, rest)) (.ok (a, rest)) budget :=
  Completes.pure _ h

theorem error (e : Failure) :
    Yields tried (throw e : ExceptT Failure Recorded (α × List Char)) (.error e) budget :=
  Completes.pure _ (Nat.zero_le _)

theorem bind {tried' : List Char} {x : ExceptT Failure Recorded (α × List Char)}
    {r : Except Failure (α × List Char)}
    {f : α × List Char → ExceptT Failure Recorded (β × List Char)}
    {g : α × List Char → Except Failure (β × List Char)} (hx : Yields tried x r budget)
    (hf : ∀ a rest, r = .ok (a, rest) →
      Yields tried' (f (a, rest)) (g (a, rest)) (callsAhead tried rest + 1)) :
    Yields tried' (x >>= f) (r >>= g) budget := by
  apply Completes.exceptT_bind hx
  · rintro e rfl
    exact Nat.le_refl 0
  · rintro ⟨a, rest⟩ rfl
    exact hf a rest rfl

theorem outcome_bind {r : Except Failure γ} {f : γ → ExceptT Failure Recorded (α × List Char)}
    {g : γ → Except Failure (α × List Char)}
    (hf : ∀ a, r = .ok a → Yields tried (f a) (g a) budget) :
    Yields tried (outcome r >>= f) (r >>= g) budget := by
  cases r with
  | error e =>
      apply Completes.exceptT_bind (.pure _ (Nat.zero_le budget)) (fun _ _ => Nat.le_refl 0)
      rintro _ ⟨⟩
  | ok a =>
      apply Completes.exceptT_bind (.pure _ (Nat.le_refl budget)) (by simp)
      rintro _ ⟨⟩
      exact hf a rfl

theorem lift_bind {x : Recorded γ} {a : γ} {mid : Nat} (hx : Completes x a mid budget)
    {f : γ → ExceptT Failure Recorded (α × List Char)} {r : Except Failure (α × List Char)}
    (hf : Yields tried (f a) r mid) : Yields tried (liftM x >>= f) r budget :=
  Completes.exceptT_lift_bind hx hf

theorem called {caller callee : Reading} (h : caller.Precedes callee) {spare : Nat}
    (hspare : spare < budget) {x : ExceptT Failure Recorded (α × List Char)}
    {r : Except Failure (α × List Char)} (hx : Yields tried x r spare) :
    Yields tried (do Catalogue.called caller callee; x) r budget :=
  lift_bind (.called h hspare) hx

end Yields

end StagedJobs.Catalogue
