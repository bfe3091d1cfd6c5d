import Mathlib

/-! Programs that perform operations of an environment. A program is a tree of
operations and continuations; running it against an interpretation of the operations
yields a result, a last state and the list of the operations with the states in which
they were performed. -/
namespace UnixProgramming

/-- Programs over operations `ο` with answers of type `ρ`. -/
inductive Program {ο : Type} (ρ : ο → Type) (α : Type) : Type
  | done (a : α)
  | perform (o : ο) (next : ρ o → Program ρ α)

namespace Program

variable {ο σ α β ε : Type} {ρ : ο → Type}

def bind : Program ρ α → (α → Program ρ β) → Program ρ β
  | done a, f => f a
  | perform o next, f => perform o fun r => (next r).bind f

instance : Monad (Program ρ) where
  pure := done
  bind := bind

def op (o : ο) : Program ρ (ρ o) := perform o done

def run (exec : σ → (o : ο) → ρ o × σ) : Program ρ α → σ → α × σ
  | done a, s => (a, s)
  | perform o next, s => (next (exec s o).1).run exec (exec s o).2

/-- The operations performed, each with the state in which it was performed. -/
def calls (exec : σ → (o : ο) → ρ o × σ) : Program ρ α → σ → List (σ × ο)
  | done _, _ => []
  | perform o next, s => (s, o) :: (next (exec s o).1).calls exec (exec s o).2

/-- At most `n` rounds of a loop; an error leaves the loop. -/
def loop (body : α → Program ρ (Except ε α)) : ℕ → α → Program ρ (Except ε α)
  | 0, a => done (.ok a)
  | n + 1, a => (body a).bind fun
    | .ok a => loop body n a
    | .error e => done (.error e)

variable {exec : σ → (o : ο) → ρ o × σ} {P : σ → Prop} {guard : σ → ο → Prop}

/-- An invariant of the guarded operations holds in every state that a program visits
when all its operations are guarded. -/
theorem invariant_of_guarded (hstep : ∀ s o, P s → guard s o → P (exec s o).2)
    (p : Program ρ α) {s : σ} (hs : P s) (hg : ∀ x ∈ p.calls exec s, guard x.1 x.2) :
    (∀ x ∈ p.calls exec s, P x.1) ∧ P (p.run exec s).2 := by
  induction p generalizing s with
  | done a => exact ⟨by simp [calls], hs⟩
  | perform o next ih =>
    have hfirst := hg (s, o) (by simp [calls])
    obtain ⟨hcalls, hlast⟩ := ih (exec s o).1 (hstep s o hs hfirst)
      fun x hx => hg x (by simp [calls, hx])
    refine ⟨fun x hx => ?_, hlast⟩
    rcases List.mem_cons.mp hx with rfl | hx
    · exact hs
    · exact hcalls x hx

@[simp] lemma bind_eq_bind (p : Program ρ α) (f : α → Program ρ β) : p >>= f = p.bind f := rfl

@[simp] lemma pure_eq_done (a : α) : (pure a : Program ρ α) = done a := rfl

@[simp] lemma run_done (a : α) (s : σ) : (done a : Program ρ α).run exec s = (a, s) := rfl

@[simp] lemma run_op (o : ο) (s : σ) : (op o : Program ρ (ρ o)).run exec s = exec s o := rfl

@[simp] lemma run_bind (p : Program ρ α) (f : α → Program ρ β) (s : σ) :
    (p.bind f).run exec s = (f (p.run exec s).1).run exec (p.run exec s).2 := by
  induction p generalizing s with
  | done a => rfl
  | perform o next ih => exact ih _ _

@[simp] lemma calls_bind (p : Program ρ α) (f : α → Program ρ β) (s : σ) :
    (p.bind f).calls exec s =
      p.calls exec s ++ (f (p.run exec s).1).calls exec (p.run exec s).2 := by
  induction p generalizing s with
  | done a => rfl
  | perform o next ih => simp [bind, calls, run, ih]

section Triples

variable {Q R : α → σ → Prop}

/-- Started with `P` and performing guarded operations only, the program ends with `Q`. -/
def Triple (exec : σ → (o : ο) → ρ o × σ) (guard : σ → ο → Prop) (P : σ → Prop)
    (p : Program ρ α) (Q : α → σ → Prop) : Prop :=
  ∀ s, P s → (∀ x ∈ p.calls exec s, guard x.1 x.2) → Q (p.run exec s).1 (p.run exec s).2

/-- One postcondition for a result and one for an error. -/
def Ends {ε : Type} (I : α → σ → Prop) (E : ε → σ → Prop) : Except ε α → σ → Prop
  | .ok a => I a
  | .error e => E e

lemma triple_done {a : α} (h : ∀ s, P s → Q a s) : Triple exec guard P (done a) Q :=
  fun s hs _ => h s hs

lemma triple_op {o : ο} {Q : ρ o → σ → Prop}
    (h : ∀ s, P s → guard s o → Q (exec s o).1 (exec s o).2) : Triple exec guard P (op o) Q :=
  fun s hs hg => h s hs (hg (s, o) (by simp [op, calls]))

lemma Triple.bind {p : Program ρ α} {f : α → Program ρ β} {T : β → σ → Prop}
    (hp : Triple exec guard P p Q) (hf : ∀ a, Triple exec guard (Q a) (f a) T) :
    Triple exec guard P (p.bind f) T := by
  intro s hs hg
  rw [calls_bind] at hg
  rw [run_bind]
  have hfirst := hp s hs fun x hx => hg x (List.mem_append_left _ hx)
  exact hf _ _ hfirst fun x hx => hg x (List.mem_append_right _ hx)

lemma Triple.weaken {p : Program ρ α} {P' : σ → Prop} (hp : Triple exec guard P p Q)
    (hpre : ∀ s, P' s → P s) (hpost : ∀ a s, Q a s → R a s) : Triple exec guard P' p R :=
  fun s hs hg => hpost _ _ (hp s (hpre s hs) hg)

/-- An invariant of the rounds is an invariant of the loop. -/
lemma triple_loop {body : α → Program ρ (Except ε α)} {I : α → σ → Prop} {E : ε → σ → Prop}
    (hbody : ∀ a, Triple exec guard (I a) (body a) (Ends I E)) (n : ℕ) (a : α) :
    Triple exec guard (I a) (loop body n a) (Ends I E) := by
  induction n generalizing a with
  | zero => exact triple_done fun s hs => hs
  | succ n ih =>
    refine (hbody a).bind fun r => ?_
    cases r with
    | ok a => exact ih a
    | error e => exact triple_done fun s hs => hs

end Triples

section Relations

/-- Every operation in every branch of the program is allowed. -/
def Uses (allowed : ο → Prop) : Program ρ α → Prop
  | done _ => True
  | perform o next => allowed o ∧ ∀ r, (next r).Uses allowed

variable {allowed : ο → Prop}

lemma Uses.bind {p : Program ρ α} {f : α → Program ρ β} (hp : p.Uses allowed)
    (hf : ∀ a, (f a).Uses allowed) : (p.bind f).Uses allowed := by
  induction p with
  | done a => exact hf a
  | perform o next ih => exact ⟨hp.1, fun r => ih r (hp.2 r)⟩

/-- Operations that answer alike in related states, and keep them related, make programs
do so. -/
lemma run_related {τ : Type} {exec' : τ → (o : ο) → ρ o × τ} {R : σ → τ → Prop}
    (hop : ∀ o, allowed o → ∀ s t, R s t →
      (exec s o).1 = (exec' t o).1 ∧ R (exec s o).2 (exec' t o).2)
    {p : Program ρ α} (hp : p.Uses allowed) {s : σ} {t : τ} (hst : R s t) :
    (p.run exec s).1 = (p.run exec' t).1 ∧ R (p.run exec s).2 (p.run exec' t).2 := by
  induction p generalizing s t with
  | done a => exact ⟨rfl, hst⟩
  | perform o next ih =>
    obtain ⟨hanswer, hrelated⟩ := hop o hp.1 s t hst
    simp only [run, ← hanswer]
    exact ih _ (hp.2 _) hrelated

end Relations

section Comparison

variable {body : α → Program ρ (Except ε α)} {body' : β → Program ρ (Except ε β)}

/-- Two runs end in the same state, with related results or with the same error. -/
def Agree (R : α → β → Prop) : Except ε α × σ → Except ε β × σ → Prop
  | (.ok a, s), (.ok b, t) => R a b ∧ s = t
  | (.error e, s), (.error f, t) => e = f ∧ s = t
  | _, _ => False

lemma Agree.eq_map {R : α → β → Prop} {x : Except ε α × σ} {y : Except ε β × σ} {f : α → β}
    (h : Agree R x y) (hf : ∀ a b, R a b → f a = b) : x.2 = y.2 ∧ x.1.map f = y.1 := by
  obtain ⟨x, s⟩ := x
  obtain ⟨y, t⟩ := y
  cases x with
  | ok a =>
    cases y with
    | ok b => exact ⟨h.2, congrArg Except.ok (hf a b h.1)⟩
    | error f => exact h.elim
  | error e =>
    cases y with
    | ok b => exact h.elim
    | error f => exact ⟨h.2, congrArg Except.error h.1⟩

/-- Loops whose bodies agree up to a relation of their states agree. -/
lemma loop_agree {R : α → β → Prop}
    (hbody : ∀ a b s, R a b → Agree R ((body a).run exec s) ((body' b).run exec s))
    (n : ℕ) {a : α} {b : β} (hab : R a b) (s : σ) :
    Agree R ((loop body n a).run exec s) ((loop body' n b).run exec s) := by
  induction n generalizing a b s with
  | zero => exact ⟨hab, rfl⟩
  | succ n ih =>
    have h := hbody a b s hab
    simp only [loop, run_bind]
    generalize (body a).run exec s = x at h ⊢
    generalize (body' b).run exec s = y at h ⊢
    obtain ⟨x, t⟩ := x
    obtain ⟨y, u⟩ := y
    cases x with
    | ok x =>
      cases y with
      | ok y =>
        obtain ⟨hxy, rfl⟩ := h
        exact ih hxy t
      | error f => exact h.elim
    | error e =>
      cases y with
      | ok y => exact h.elim
      | error f => exact h

/-- Loops whose bodies run alike in every state that the first one reaches run alike. -/
lemma loop_run_congr {body' : α → Program ρ (Except ε α)} {n : ℕ} {a : α} {s : σ}
    (h : ∀ k < n, ∀ b t, (loop body k a).run exec s = (.ok b, t) →
      (body b).run exec t = (body' b).run exec t) :
    (loop body n a).run exec s = (loop body' n a).run exec s := by
  induction n generalizing a s with
  | zero => rfl
  | succ n ih =>
    have hfirst := h 0 (Nat.succ_pos n) a s rfl
    simp only [loop, run_bind, ← hfirst]
    cases hr : ((body a).run exec s).1 with
    | ok b =>
      refine ih fun k hk c t hc => h (k + 1) (by omega) c t ?_
      simpa only [loop, run_bind, hr] using hc
    | error e => rfl

lemma loop_succ_of_ok {n : ℕ} {a b : α} {s t : σ} (h : (loop body n a).run exec s = (.ok b, t)) :
    (loop body (n + 1) a).run exec s = (body b).run exec t := by
  induction n generalizing a s with
  | zero =>
    obtain ⟨rfl, rfl⟩ : a = b ∧ s = t := by simpa [loop] using h
    simp only [loop, run_bind]
    cases hr : ((body a).run exec s).1 <;> simp [← hr]
  | succ n ih =>
    rw [loop, run_bind] at h ⊢
    cases hr : ((body a).run exec s).1 with
    | ok c => exact ih (by simpa only [hr] using h)
    | error e => simp [hr] at h

lemma loop_succ_of_error {n : ℕ} {a : α} {s t : σ} {e : ε}
    (h : (loop body n a).run exec s = (.error e, t)) :
    (loop body (n + 1) a).run exec s = (.error e, t) := by
  induction n generalizing a s with
  | zero => simp [loop] at h
  | succ n ih =>
    rw [loop, run_bind] at h ⊢
    cases hr : ((body a).run exec s).1 with
    | ok c => exact ih (by simpa only [hr] using h)
    | error f => simpa only [hr] using h

/-- A loop avoids an error when no round that it reaches ends with it. -/
lemma loop_ne_error_iff {n : ℕ} {a : α} {s : σ} {e : ε} :
    ((loop body n a).run exec s).1 ≠ .error e ↔
      ∀ k < n, ∀ b t, (loop body k a).run exec s = (.ok b, t) →
        ((body b).run exec t).1 ≠ .error e := by
  induction n generalizing a s with
  | zero => simp [loop]
  | succ n ih =>
    have hfirst : (∀ b t, (loop body 0 a).run exec s = (.ok b, t) →
        ((body b).run exec t).1 ≠ .error e) ↔ ((body a).run exec s).1 ≠ .error e := by
      simp [loop]
    rw [Nat.forall_lt_succ_left, hfirst]
    simp only [loop, run_bind]
    cases hr : ((body a).run exec s).1 with
    | ok b => simp [ih]
    | error f => simp

end Comparison

end Program
end UnixProgramming
