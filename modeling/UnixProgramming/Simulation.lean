import Mathlib

/-! A transition relation that a deterministic abstract machine describes exactly: both
can take a step in related states only together. -/
namespace UnixProgramming

variable {α σ : Type*}

/-- The states that the abstract machine runs through. -/
def Runs (next : α → Option α) : α → α → Prop :=
  Relation.ReflTransGen fun a b => next a = some b

structure Describes (next : α → Option α) (Step : σ → σ → Prop) (R : α → σ → Prop) : Prop where
  forward : ∀ {a a' s}, R a s → next a = some a' → ∃ s', Step s s' ∧ R a' s'
  backward : ∀ {a s s'}, R a s → Step s s' → ∃ a', next a = some a' ∧ R a' s'

section

variable {next : α → Option α} {Step : σ → σ → Prop} {R : α → σ → Prop}

/-- It is enough to know the only step of every related state. -/
lemma Describes.of_unique
    (h : ∀ {a s}, R a s → ∃ o, (∀ t, Step s t ↔ o = some t) ∧ Option.Rel R (next a) o) :
    Describes next Step R where
  forward := by
    intro a a' s hs hnext
    obtain ⟨o, hstep, hrel⟩ := h hs
    rw [hnext] at hrel
    cases hrel with
    | some hs' => exact ⟨_, (hstep _).mpr rfl, hs'⟩
  backward := by
    intro a s s' hs hstep'
    obtain ⟨o, hstep, hrel⟩ := h hs
    rw [(hstep s').mp hstep'] at hrel
    generalize next a = b at hrel ⊢
    cases hrel with
    | some hs' => exact ⟨_, rfl, hs'⟩

lemma Describes.runs_forward (h : Describes next Step R) {a b : α} {s : σ} (hs : R a s)
    (hrun : Runs next a b) : ∃ t, Relation.ReflTransGen Step s t ∧ R b t := by
  induction hrun with
  | refl => exact ⟨s, .refl, hs⟩
  | tail _ hnext ih =>
    obtain ⟨t, hrun, ht⟩ := ih
    obtain ⟨u, hstep, hu⟩ := h.forward ht hnext
    exact ⟨u, hrun.tail hstep, hu⟩

lemma Describes.runs_backward (h : Describes next Step R) {a : α} {s t : σ} (hs : R a s)
    (hrun : Relation.ReflTransGen Step s t) : ∃ b, Runs next a b ∧ R b t := by
  induction hrun with
  | refl => exact ⟨a, .refl, hs⟩
  | tail _ hstep ih =>
    obtain ⟨b, hrun, hb⟩ := ih
    obtain ⟨c, hnext, hc⟩ := h.backward hb hstep
    exact ⟨c, hrun.tail hnext, hc⟩

lemma Describes.steps_iff (h : Describes next Step R) {a : α} {s : σ} (hs : R a s) :
    (∃ t, Step s t) ↔ (next a).isSome = true := by
  constructor
  · rintro ⟨t, hstep⟩
    obtain ⟨b, hnext, -⟩ := h.backward hs hstep
    simp [hnext]
  · intro hsome
    obtain ⟨b, hnext⟩ := Option.isSome_iff_exists.mp hsome
    obtain ⟨t, hstep, -⟩ := h.forward hs hnext
    exact ⟨t, hstep⟩

lemma Runs.head {a b c : α} (hnext : next a = some b) (hrun : Runs next b c) : Runs next a c :=
  Relation.ReflTransGen.head hnext hrun

/-- All states of a run come before the one in which it ends. -/
lemma Runs.to_last {a b c : α} (hb : Runs next a b) (hlast : next b = none)
    (hc : Runs next a c) : Runs next c b := by
  induction hc with
  | refl => exact hb
  | @tail d e _ hnext ih =>
    rcases Relation.ReflTransGen.cases_head ih with rfl | ⟨e', he', hrest⟩
    · rw [hlast] at hnext
      cases hnext
    · obtain rfl : e' = e := Option.some.inj (he'.symm.trans hnext)
      exact hrest

lemma Runs.eq_last {a b c : α} (hb : Runs next a b) (hbnone : next b = none)
    (hc : Runs next a c) (hcnone : next c = none) : c = b := by
  rcases Relation.ReflTransGen.cases_head (hb.to_last hbnone hc) with h | ⟨d, hd, -⟩
  · exact h
  · rw [hcnone] at hd
    cases hd

end

section

variable {next : α → Option α} {Final : α → Prop}

def NeverStuck (next : α → Option α) (Final : α → Prop) (a : α) : Prop :=
  ∀ b, Runs next a b → ¬ Final b → (next b).isSome

lemma neverStuck_of_final {a : α} (ha : Final a) (hnone : next a = none) :
    NeverStuck next Final a := by
  intro b hrun hb
  rcases Relation.ReflTransGen.cases_head hrun with rfl | ⟨c, hc, -⟩
  · exact absurd ha hb
  · rw [hnone] at hc
    cases hc

lemma neverStuck_iff_of_next {a b : α} (hnext : next a = some b) :
    NeverStuck next Final a ↔ NeverStuck next Final b := by
  constructor
  · intro h c hrun
    exact h c (hrun.head hnext)
  · intro h c hrun hc
    rcases Relation.ReflTransGen.cases_head hrun with rfl | ⟨d, hd, hrest⟩
    · simp [hnext]
    · obtain rfl : b = d := Option.some.inj (hnext.symm.trans hd)
      exact h c hrest hc

end

section

variable {β : Type*} {next : α → Option α} {Final : α → Prop} {embed leave : β → α}
  {inner : β → Option β} {allowed : β → Prop} [DecidablePred allowed]

/-- A part of the machine runs another machine as long as its states are allowed, and goes on
when that one ends. -/
def Embeds (next : α → Option α) (embed leave : β → α) (inner : β → Option β)
    (allowed : β → Prop) [DecidablePred allowed] : Prop :=
  ∀ c, next (embed c) =
    match inner c with
    | none => some (leave c)
    | some d => if allowed d then some (embed d) else none

lemma Embeds.runs (h : Embeds next embed leave inner allowed) {c d : β} (hrun : Runs inner c d)
    (hallowed : ∀ e, Runs inner c e → allowed e) : Runs next (embed c) (embed d) := by
  induction hrun with
  | refl => exact .refl
  | @tail d e hrun hnext ih =>
    refine ih.tail ?_
    rw [h d, hnext]
    exact if_pos (hallowed e (hrun.tail hnext))

lemma Embeds.runs_leave (h : Embeds next embed leave inner allowed) {c d : β}
    (hrun : Runs inner c d) (hlast : inner d = none)
    (hallowed : ∀ e, Runs inner c e → allowed e) : Runs next (embed c) (leave d) := by
  refine (h.runs hrun hallowed).tail ?_
  rw [h d, hlast]

lemma Embeds.runs_cases (h : Embeds next embed leave inner allowed) {c : β} {b : α}
    (hrun : Runs next (embed c) b) :
    (∃ d, Runs inner c d ∧ b = embed d) ∨
      ∃ d, Runs inner c d ∧ inner d = none ∧ Runs next (leave d) b := by
  induction hrun with
  | refl => exact .inl ⟨c, .refl, rfl⟩
  | @tail b b' _ hnext ih =>
    rcases ih with ⟨d, hd, rfl⟩ | ⟨d, hd, hlast, hrest⟩
    · rw [h d] at hnext
      cases hinner : inner d with
      | none =>
        rw [hinner] at hnext
        exact .inr ⟨d, hd, hinner, Option.some.inj hnext ▸ .refl⟩
      | some e =>
        simp only [hinner, Option.ite_none_right_eq_some, Option.some.injEq] at hnext
        exact .inl ⟨e, hd.tail hinner, hnext.2.symm⟩
    · exact .inr ⟨d, hd, hlast, hrest.tail hnext⟩

/-- The part gets stuck in a state before one that is not allowed, and nowhere else. -/
lemma Embeds.neverStuck_iff (h : Embeds next embed leave inner allowed)
    (hfinal : ∀ c, ¬ Final (embed c)) {c : β} (hc : allowed c) :
    NeverStuck next Final (embed c) ↔
      (∀ d, Runs inner c d → allowed d) ∧
        ∀ d, Runs inner c d → inner d = none → NeverStuck next Final (leave d) := by
  constructor
  · intro hsafe
    have hruns : ∀ d, Runs inner c d → Runs next (embed c) (embed d) ∧ allowed d := by
      intro d hd
      induction hd with
      | refl => exact ⟨.refl, hc⟩
      | @tail d e _ hnext ih =>
        have hsome := hsafe (embed d) ih.1 (hfinal d)
        rw [h d, hnext] at hsome
        have hallowed : allowed e := by
          by_contra hnot
          simp [hnot] at hsome
        refine ⟨ih.1.tail ?_, hallowed⟩
        rw [h d, hnext]
        exact if_pos hallowed
    refine ⟨fun d hd => (hruns d hd).2, fun d hd hlast b hb => ?_⟩
    have hleave := h.runs_leave hd hlast fun e he => (hruns e he).2
    exact hsafe b (hleave.trans hb)
  · rintro ⟨hallowed, hleave⟩ b hrun hb
    rcases h.runs_cases hrun with ⟨d, hd, rfl⟩ | ⟨d, hd, hlast, hrest⟩
    · rw [h d]
      cases hinner : inner d with
      | none => rfl
      | some e => simp [hallowed e (hd.tail hinner)]
    · exact hleave d hd hlast b hrest hb

end
end UnixProgramming
