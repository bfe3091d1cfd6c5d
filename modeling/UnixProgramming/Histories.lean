import Mathlib

/-! Histories of events, and properties of an event that depend on the events before it. -/
namespace UnixProgramming

variable {ε : Type*} {allowed : List ε → ε → Prop}

/-- Each event of a history is allowed by the events before it. -/
def EachAllowed (allowed : List ε → ε → Prop) (history : List ε) : Prop :=
  ∀ past event, past ++ [event] <+: history → allowed past event

lemma eachAllowed_nil : EachAllowed allowed [] := fun past event h => by
  simpa using List.prefix_nil.mp h

lemma eachAllowed_snoc {history : List ε} {event : ε} :
    EachAllowed allowed (history ++ [event]) ↔
      EachAllowed allowed history ∧ allowed history event := by
  constructor
  · intro h
    exact ⟨fun past e hp => h past e (hp.trans (List.prefix_append _ _)),
      h history event (List.prefix_refl _)⟩
  · rintro ⟨h, hevent⟩ past e hp
    rcases List.prefix_concat_iff.mp hp with heq | hp
    · obtain ⟨rfl, rfl⟩ := List.append_singleton_inj.mp heq
      exact hevent
    · exact h past e hp

lemma eachAllowed_iff_getElem {history : List ε} : EachAllowed allowed history ↔
    ∀ i (hi : i < history.length), allowed (history.take i) history[i] := by
  constructor
  · intro h i hi
    refine h _ _ ?_
    rw [List.take_append_getElem]
    exact List.take_prefix _ _
  · rintro h past event ⟨rest, rfl⟩
    simpa using h past.length (by simp)

instance decidableEachAllowed [∀ past event, Decidable (allowed past event)] (history : List ε) :
    Decidable (EachAllowed allowed history) :=
  decidable_of_iff _ eachAllowed_iff_getElem.symm

variable {S : Type*} {step : S → ε → S} {init state : S} {ok : S → ε → Prop}

/-- Read from `init` on, a history leads to `state` and each of its events is permitted by
the state before it. -/
structure Follows (step : S → ε → S) (init : S) (ok : S → ε → Prop) (state : S)
    (history : List ε) : Prop where
  state_eq : history.foldl step init = state
  permitted : EachAllowed (fun past event => ok (past.foldl step init) event) history

lemma follows_nil : Follows step init ok init [] := ⟨rfl, eachAllowed_nil⟩

lemma Follows.snoc {history : List ε} {event : ε} (h : Follows step init ok state history)
    (hok : ok state event) : Follows step init ok (step state event) (history ++ [event]) where
  state_eq := by rw [List.foldl_append, h.state_eq]; rfl
  permitted := eachAllowed_snoc.mpr ⟨h.permitted, by rwa [h.state_eq]⟩

end UnixProgramming
