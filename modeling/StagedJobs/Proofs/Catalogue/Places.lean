import Mathlib.Data.List.Infix
import StagedJobs.Proofs.Catalogue.LiteralRoundTrip
import StagedJobs.Proofs.Outcomes
import StagedJobs.Catalogue.Reader

namespace StagedJobs.Catalogue

/-- A place is given by the text from it on: `rest` is that of a later place than `cs`. -/
structure Past (cs rest : List Char) : Prop where
  suffix : rest <:+ cs
  shorter : rest.length < cs.length

namespace Past

variable {cs mid rest : List Char}

theorem cons (c : Char) (cs : List Char) : Past (c :: cs) cs :=
  ⟨List.suffix_cons c cs, by simp⟩

theorem ne_nil (h : Past cs rest) : cs ≠ [] :=
  List.ne_nil_of_length_pos (Nat.zero_lt_of_lt h.shorter)

theorem append {passed : List Char} (h : passed ≠ []) (rest : List Char) :
    Past (passed ++ rest) rest := by
  refine ⟨List.suffix_append passed rest, ?_⟩
  have hpos := List.length_pos_iff.mpr h
  rw [List.length_append]
  omega

theorem trans_suffix (h : Past cs mid) (hrest : rest <:+ mid) : Past cs rest :=
  ⟨hrest.trans h.suffix, Nat.lt_of_le_of_lt hrest.length_le h.shorter⟩

theorem of_suffix (hmid : mid <:+ cs) (h : Past mid rest) : Past cs rest :=
  ⟨h.suffix.trans hmid, Nat.lt_of_lt_of_le h.shorter hmid.length_le⟩

theorem trans (h : Past cs mid) (hrest : Past mid rest) : Past cs rest :=
  h.trans_suffix hrest.suffix

end Past

theorem skipInline_suffix (cs : List Char) : skipInline cs <:+ cs :=
  List.dropWhile_suffix isInlineBlank

mutual

theorem skipBlank_suffix : (cs : List Char) → skipBlank cs <:+ cs
  | [] => List.suffix_refl []
  | c :: rest => by
      rw [skipBlank]
      split
      case isTrue => exact (skipBlank_suffix rest).trans (List.suffix_cons c rest)
      case isFalse =>
        split
        case isTrue => exact (skipComment_suffix rest).trans (List.suffix_cons c rest)
        case isFalse => exact List.suffix_refl _

theorem skipComment_suffix : (cs : List Char) → skipComment cs <:+ cs
  | [] => List.suffix_refl []
  | c :: rest => by
      rw [skipComment]
      split
      case isTrue => exact (skipBlank_suffix rest).trans (List.suffix_cons c rest)
      case isFalse => exact (skipComment_suffix rest).trans (List.suffix_cons c rest)

end

section Literals

variable {cs rest : List Char}

theorem past_of_run? {isMember : Char → Bool} {s : String} (h : run? isMember cs = some (s, rest)) :
    Past cs rest := by
  obtain ⟨hne, -, rfl⟩ := run?_eq_some h
  exact .append hne rest

theorem past_of_keyword? {word : String} (h : keyword? word cs = some rest) : Past cs rest := by
  obtain ⟨c, after, -, rfl, rfl⟩ := keyword?_eq_some h
  exact .of_suffix (List.suffix_append _ _)
    ((Past.cons c after).trans_suffix (skipInline_suffix after))

theorem past_of_quotedText? {s : String} (h : quotedText? cs = some (s, rest)) : Past cs rest := by
  obtain ⟨-, rfl⟩ := quotedText?_eq_some h
  exact .of_suffix (List.suffix_append _ _) (.cons '"' rest)

theorem past_of_scalar? {x : Literal} (h : scalar? cs = some (x, rest)) : Past cs rest := by
  rw [scalar?] at h
  cases hnumber : number? cs with
  | some found =>
      rw [hnumber] at h
      obtain rfl := Option.some.inj h
      obtain ⟨spelled, hspelled, rfl⟩ := number?_eq_some hnumber
      obtain ⟨c, more, rfl, -⟩ := exists_isWordChar_of_spelledAs hspelled
      exact .append (List.cons_ne_nil c more) rest
  | none =>
      rw [hnumber, Option.none_or] at h
      obtain ⟨⟨s, after⟩, hrun, heq⟩ := Option.map_eq_some_iff.mp h
      obtain ⟨-, rfl⟩ := Prod.mk.inj heq
      exact past_of_run? hrun

theorem past_of_skipBlank_eq {c : Char} {mid : List Char} (h : skipBlank cs = c :: mid) :
    Past cs mid :=
  .of_suffix (h ▸ skipBlank_suffix cs) (.cons c mid)

theorem past_of_skipInline_eq {c : Char} {mid : List Char} (h : skipInline cs = c :: mid) :
    Past cs mid :=
  .of_suffix (h ▸ skipInline_suffix cs) (.cons c mid)

mutual

theorem past_of_readLiteral? : (steps : Nat) → {cs rest : List Char} → {x : Literal} →
    readLiteral? steps cs = some (x, rest) → Past cs rest
  | 0, cs, rest, x, h => by simp [readLiteral?] at h
  | steps + 1, cs, rest, x, h => by
      unfold readLiteral? at h
      split at h
      case h_1 after =>
        obtain ⟨⟨s, tail⟩, hquoted, heq⟩ := Option.map_eq_some_iff.mp h
        obtain ⟨-, rfl⟩ := Prod.mk.inj heq
        exact (Past.cons '"' after).trans (past_of_quotedText? hquoted)
      case h_2 after =>
        split at h
        case h_1 tail hskip =>
          obtain ⟨-, rfl⟩ := Prod.mk.inj (Option.some.inj h)
          exact (Past.cons '[' after).trans (past_of_skipBlank_eq hskip)
        case h_2 =>
          obtain ⟨⟨items, tail⟩, hitems, heq⟩ := Option.map_eq_some_iff.mp h
          obtain ⟨-, rfl⟩ := Prod.mk.inj heq
          exact (Past.cons '[' after).trans
            (.of_suffix (skipBlank_suffix after) (past_of_readItems? steps hitems))
      case h_3 => exact past_of_scalar? h

theorem past_of_readItems? : (steps : Nat) → {cs rest : List Char} → {items : List Literal} →
    readItems? steps cs = some (items, rest) → Past cs rest
  | 0, cs, rest, items, h => by simp [readItems?] at h
  | steps + 1, cs, rest, items, h => by
      rw [readItems?] at h
      obtain ⟨⟨item, after⟩, hitem, h⟩ := Option.bind_eq_some_iff.mp h
      have hpast := Past.of_suffix (skipBlank_suffix cs) (past_of_readLiteral? steps hitem)
      simp only at h
      split at h
      case h_1 tail hskip =>
        obtain ⟨⟨others, tail'⟩, hothers, heq⟩ := Option.bind_eq_some_iff.mp h
        obtain ⟨-, rfl⟩ := Prod.mk.inj (Option.some.inj heq)
        exact (hpast.trans (past_of_skipBlank_eq hskip)).trans (past_of_readItems? steps hothers)
      case h_2 tail hskip =>
        obtain ⟨-, rfl⟩ := Prod.mk.inj (Option.some.inj h)
        exact hpast.trans (past_of_skipBlank_eq hskip)
      case h_3 => simp at h

end

theorem readValues_suffix (steps : Nat) (cs : List Char) : (readValues steps cs).2 <:+ cs := by
  induction steps generalizing cs with
  | zero => exact List.suffix_refl cs
  | succ steps ih =>
      rw [readValues]
      split
      case h_1 value after hread =>
        have hpast := Past.of_suffix (skipInline_suffix cs) (past_of_readLiteral? steps hread)
        exact ((ih (skipInline after)).trans (skipInline_suffix after)).trans hpast.suffix
      case h_2 => exact List.suffix_refl cs

theorem past_of_assigned? {steps : Nat} {x : Literal} (h : assigned? steps cs = some (x, rest)) :
    Past cs rest := by
  rw [assigned?] at h
  split at h
  case h_1 after hskip =>
    exact (past_of_skipInline_eq hskip).trans
      (.of_suffix (skipInline_suffix after) (past_of_readLiteral? steps h))
  case h_2 => simp at h

theorem past_of_constraint? {steps : Nat} {c : String × Literal}
    (h : constraint? steps cs = some (c, rest)) : Past cs rest := by
  obtain ⟨⟨name, after⟩, hname, h⟩ := Option.bind_eq_some_iff.mp h
  obtain ⟨⟨value, tail⟩, hvalue, heq⟩ := Option.bind_eq_some_iff.mp h
  obtain ⟨-, rfl⟩ := Prod.mk.inj (Option.some.inj heq)
  exact (past_of_run? hname).trans (past_of_assigned? hvalue)

theorem past_of_readConstraints? {steps : Nat} {constraints : List (String × Literal)}
    (h : readConstraints? steps cs = some (constraints, rest)) : Past cs rest := by
  induction steps generalizing cs rest constraints with
  | zero => simp [readConstraints?] at h
  | succ steps ih =>
      rw [readConstraints?] at h
      obtain ⟨⟨first, after⟩, hfirst, h⟩ := Option.bind_eq_some_iff.mp h
      have hpast := Past.of_suffix (skipBlank_suffix cs) (past_of_constraint? hfirst)
      simp only at h
      split at h
      case h_1 tail hskip =>
        obtain ⟨⟨others, tail'⟩, hothers, heq⟩ := Option.bind_eq_some_iff.mp h
        obtain ⟨-, rfl⟩ := Prod.mk.inj (Option.some.inj heq)
        exact (hpast.trans (past_of_skipBlank_eq hskip)).trans (ih hothers)
      case h_2 tail hskip =>
        obtain ⟨-, rfl⟩ := Prod.mk.inj (Option.some.inj h)
        exact hpast.trans (past_of_skipBlank_eq hskip)
      case h_3 => simp at h

theorem past_of_constraints? {steps : Nat} {constraints : List (String × Literal)}
    (h : constraints? steps cs = some (constraints, rest)) : Past cs rest := by
  rw [constraints?] at h
  split at h
  case h_1 after hskip => exact (past_of_skipInline_eq hskip).trans (past_of_readConstraints? h)
  case h_2 => simp at h

theorem past_of_description? {s : String} (h : description? cs = some (s, rest)) :
    Past cs rest := by
  rw [description?] at h
  unfold quoted? at h
  split at h
  case h_1 after hskip => exact (past_of_skipInline_eq hskip).trans (past_of_quotedText? h)
  case h_2 => simp at h

theorem optionally_suffix {α : Type} {part : List Char → Option (α × List Char)} {x : Option α}
    (hpart : ∀ x rest, part cs = some (x, rest) → Past cs rest)
    (h : optionally part cs = (x, rest)) : rest <:+ cs := by
  rw [optionally] at h
  split at h
  case h_1 x after hread =>
    obtain ⟨-, rfl⟩ := Prod.mk.inj h
    exact (hpart x after hread).suffix
  case h_2 =>
    obtain ⟨-, rfl⟩ := Prod.mk.inj h
    exact List.suffix_refl cs

end Literals

/-- What holds of the outcome of a reader: `P` of what it reads, and its failure is at a place of the
text from `cs` on. -/
def Within {α : Type} (cs : List Char) (P : α → Prop) : Except Failure α → Prop
  | .ok a => P a
  | .error f => f.rest <:+ cs

namespace Within

variable {α β : Type} {cs mid : List Char} {P : α → Prop} {Q : β → Prop}

theorem of_ok {x : Except Failure α} (h : Within cs P x) {a : α} (hx : x = .ok a) : P a := by
  subst hx
  exact h

theorem of_error {x : Except Failure α} (h : Within cs P x) {f : Failure} (hx : x = .error f) :
    f.rest <:+ cs := by
  subst hx
  exact h

theorem of_suffix {x : Except Failure α} (hmid : mid <:+ cs) (h : Within mid P x) :
    Within cs P x := by
  cases x with
  | ok a => exact h
  | error f => exact List.IsSuffix.trans h hmid

theorem bind {x : Except Failure α} {f : α → Except Failure β} (h : Within cs P x)
    (hf : ∀ a, P a → Within cs Q (f a)) : Within cs Q (x >>= f) := by
  cases x with
  | ok a => exact hf a h
  | error f => exact h

end Within

/-- A reader that started at `cs` reads something, or fails at a place ahead. -/
def Advances {α : Type} (cs : List Char) (x : Except Failure (α × List Char)) : Prop :=
  Within cs (fun found => Past cs found.2) x

theorem Advances.past {α : Type} {cs rest : List Char} {x : Except Failure (α × List Char)} {a : α}
    (h : Advances cs x) (hx : x = .ok (a, rest)) : Past cs rest :=
  h.of_ok hx

theorem advances_readName (cs : List Char) : Advances cs (readName cs) := by
  rw [readName]
  split
  case h_1 found hname => exact Past.of_suffix (skipBlank_suffix cs) (past_of_run? hname)
  case h_2 => exact skipBlank_suffix cs

theorem within_readOpening (cs : List Char) : Within cs (Past cs) (readOpening cs) := by
  unfold readOpening
  split
  case h_1 rest => exact .cons _ rest
  case h_2 => exact List.suffix_refl cs

theorem within_readLineEnd (cs : List Char) : Within cs (· <:+ cs) (readLineEnd cs) := by
  unfold readLineEnd
  split
  case h_1 => exact List.suffix_refl []
  case h_2 c rest =>
    split
    case isTrue => exact skipBlank_suffix (c :: rest)
    case isFalse => split <;> exact List.suffix_refl (c :: rest)

theorem advances_readStageNumber (cs : List Char) : Advances cs (readStageNumber cs) := by
  rw [readStageNumber]
  rcases hdigits : spanDigits cs with ⟨digits, rest⟩
  obtain ⟨-, rfl⟩ := spanDigits_eq hdigits
  simp only
  split
  case isTrue => exact List.suffix_refl _
  case isFalse hne =>
    split
    case isTrue => exact .append (by simpa using hne) rest
    case isFalse => exact List.suffix_refl _

theorem advances_readParamName (cs : List Char) : Advances cs (readParamName cs) := by
  rw [readParamName]
  split
  case h_1 => exact List.suffix_refl cs
  case h_2 name rest hname =>
    have hpast := past_of_run? hname
    split
    case h_1 tail hskip => exact hpast.trans (past_of_skipInline_eq hskip)
    case h_2 => exact (skipInline_suffix rest).trans hpast.suffix

theorem advances_readParamType (cs : List Char) : Advances cs (readParamType cs) := by
  rw [readParamType]
  split
  case h_1 found htype => exact past_of_run? htype
  case h_2 => exact List.suffix_refl cs

theorem readRequired_suffix {cs rest : List Char} {required : Bool}
    (h : readRequired cs = (required, rest)) : rest <:+ cs := by
  unfold readRequired at h
  split at h
  case h_1 after =>
    obtain ⟨-, rfl⟩ := Prod.mk.inj h
    exact List.suffix_cons '!' after
  case h_2 =>
    obtain ⟨-, rfl⟩ := Prod.mk.inj h
    exact List.suffix_refl cs

theorem advances_readParam (steps : Nat) (cs : List Char) : Advances cs (readParam steps cs) := by
  rw [readParam]
  apply (advances_readParamName cs).bind
  rintro ⟨name, afterName⟩ hname
  have hstart : skipInline afterName <:+ cs := (skipInline_suffix afterName).trans hname.suffix
  apply ((advances_readParamType (skipInline afterName)).of_suffix hstart).bind
  rintro ⟨type, afterType⟩ htype
  rcases hrequired : readRequired afterType with ⟨required, afterMark⟩
  rcases hdefault : optionally (assigned? steps) afterMark with ⟨default, afterDefault⟩
  rcases hgroup : optionally (constraints? steps) afterDefault with ⟨constraints, afterGroup⟩
  rcases hdescription : optionally description? afterGroup with ⟨description, rest⟩
  have hafterMark := readRequired_suffix hrequired
  have hafterDefault := optionally_suffix (fun _ _ => past_of_assigned?) hdefault
  have hafterGroup := optionally_suffix (fun _ _ => past_of_constraints?) hgroup
  have hrest := optionally_suffix (fun _ _ => past_of_description?) hdescription
  simp only [hrequired, hdefault, hgroup, hdescription]
  exact Past.of_suffix hstart (htype.trans_suffix
    (hrest.trans (hafterGroup.trans (hafterDefault.trans hafterMark))))

theorem advances_readProperty (steps : Nat) (cs : List Char) :
    Advances cs (readProperty steps cs) := by
  rw [readProperty]
  split
  case h_1 => exact List.suffix_refl cs
  case h_2 key rest hkey =>
    exact (past_of_run? hkey).trans_suffix (readValues_suffix steps rest)

/-- What stages and workflows have in common: a name, and entries between braces. -/
def readBody (steps : Nat) (cs : List Char) :
    Except Failure ((String × List Entry) × List Char) := do
  let (name, rest) ← readName cs
  let rest ← readOpening (skipBlank rest)
  let (entries, rest) ← readEntries steps (skipBlank rest)
  .ok ((name, entries), rest)

theorem readWorkflow_eq (steps : Nat) (cs : List Char) :
    readWorkflow steps cs = (do
      let ((jobType, entries), rest) ← readBody steps cs
      .ok (⟨jobType, entries⟩, rest)) := by
  simp only [readWorkflow, readBody, bind_assoc]
  rfl

theorem readEntry_stage {cs after : List Char} (h : keyword? "stage" cs = some after)
    (steps : Nat) :
    readEntry (steps + 1) cs = (do
      let (number, rest) ← readStageNumber after
      let ((taskType, entries), rest) ← readBody steps (skipInline rest)
      .ok (.stage number taskType entries, rest)) := by
  simp only [readEntry, h, readBody, bind_assoc]
  rfl

theorem readEntry_param {cs after : List Char} (hstage : keyword? "stage" cs = none)
    (h : keyword? "param" cs = some after) (steps : Nat) :
    readEntry (steps + 1) cs = (do
      let (param, rest) ← readParam steps after
      .ok (.param param, rest)) := by
  rw [readEntry, hstage, h]

theorem readEntry_property {cs : List Char} (hstage : keyword? "stage" cs = none)
    (hparam : keyword? "param" cs = none) (steps : Nat) :
    readEntry (steps + 1) cs = (do
      let (property, rest) ← readProperty steps cs
      .ok (.property property, rest)) := by
  rw [readEntry, hstage, hparam]

theorem advances_readBody {steps : Nat} (hentries : ∀ mid, Advances mid (readEntries steps mid))
    (cs : List Char) : Advances cs (readBody steps cs) := by
  apply (advances_readName cs).bind
  rintro ⟨name, afterName⟩ hname
  have hbrace : skipBlank afterName <:+ cs := (skipBlank_suffix afterName).trans hname.suffix
  apply ((within_readOpening (skipBlank afterName)).of_suffix hbrace).bind
  intro atBody hatBody
  have hbody : skipBlank atBody <:+ cs :=
    ((skipBlank_suffix atBody).trans hatBody.suffix).trans hbrace
  apply ((hentries (skipBlank atBody)).of_suffix hbody).bind
  rintro ⟨entries, rest⟩ hrest
  exact Past.of_suffix hbody hrest

mutual

theorem advances_readEntries : (steps : Nat) → (cs : List Char) →
    Advances cs (readEntries steps cs)
  | 0, cs => List.suffix_refl cs
  | steps + 1, [] => List.suffix_refl []
  | steps + 1, c :: tail => by
      rw [readEntries]
      split
      case isTrue => exact .cons c tail
      case isFalse =>
        split
        case isFalse => exact List.suffix_refl (c :: tail)
        case isTrue =>
          apply (advances_readEntry steps (c :: tail)).bind
          rintro ⟨entry, afterEntry⟩ hentry
          have hend : skipInline afterEntry <:+ c :: tail :=
            (skipInline_suffix afterEntry).trans hentry.suffix
          apply ((within_readLineEnd (skipInline afterEntry)).of_suffix hend).bind
          intro next hnext
          have hnext : next <:+ c :: tail := hnext.trans hend
          apply ((advances_readEntries steps next).of_suffix hnext).bind
          rintro ⟨entries, rest⟩ hrest
          exact Past.of_suffix hnext hrest

theorem advances_readEntry : (steps : Nat) → (cs : List Char) →
    Advances cs (readEntry steps cs)
  | 0, cs => List.suffix_refl cs
  | steps + 1, cs => by
      cases hstage : keyword? "stage" cs with
      | some after =>
          have hafter := past_of_keyword? hstage
          rw [readEntry_stage hstage]
          apply ((advances_readStageNumber after).of_suffix hafter.suffix).bind
          rintro ⟨number, afterNumber⟩ hnumber
          have hname : skipInline afterNumber <:+ cs :=
            (skipInline_suffix afterNumber).trans (hafter.trans hnumber).suffix
          have hentries := advances_readEntries steps
          apply ((advances_readBody hentries (skipInline afterNumber)).of_suffix hname).bind
          rintro ⟨⟨taskType, entries⟩, rest⟩ hrest
          exact Past.of_suffix hname hrest
      | none =>
          cases hparam : keyword? "param" cs with
          | some after =>
              have hafter := past_of_keyword? hparam
              rw [readEntry_param hstage hparam]
              apply ((advances_readParam steps after).of_suffix hafter.suffix).bind
              rintro ⟨param, rest⟩ hrest
              exact hafter.trans hrest
          | none =>
              rw [readEntry_property hstage hparam]
              apply (advances_readProperty steps cs).bind
              rintro ⟨property, rest⟩ hrest
              exact hrest

end

theorem advances_readWorkflow (steps : Nat) (cs : List Char) :
    Advances cs (readWorkflow steps cs) := by
  rw [readWorkflow_eq]
  apply (advances_readBody (advances_readEntries steps) cs).bind
  rintro ⟨⟨jobType, entries⟩, rest⟩ hrest
  exact hrest

theorem within_readWorkflows (steps : Nat) (cs : List Char) :
    Within cs (fun _ => True) (readWorkflows steps cs) := by
  induction steps generalizing cs with
  | zero =>
      cases cs with
      | nil => trivial
      | cons c cs => exact List.suffix_refl (c :: cs)
  | succ steps ih =>
      cases cs with
      | nil => trivial
      | cons c cs =>
          rw [readWorkflows]
          · split
            case h_1 => exact List.suffix_refl (c :: cs)
            case h_2 start hkeyword =>
              have hstart := past_of_keyword? hkeyword
              apply ((advances_readWorkflow steps start).of_suffix hstart.suffix).bind
              rintro ⟨block, after⟩ hafter
              have hnext : skipBlank after <:+ c :: cs :=
                (skipBlank_suffix after).trans (hstart.trans hafter).suffix
              exact ((ih (skipBlank after)).of_suffix hnext).bind fun _ _ => trivial
          · exact List.cons_ne_nil c cs

theorem rest_suffix_of_readTextWithin {steps : Nat} {text : List Char} {f : Failure}
    (h : readTextWithin steps text = .error f) : f.rest <:+ text :=
  ((within_readWorkflows steps (skipBlank text)).of_error h).trans (skipBlank_suffix text)

end StagedJobs.Catalogue
