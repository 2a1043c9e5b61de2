import Mathlib.Data.List.Basic

/-!
# Machines and their runs

A machine takes labelled steps by a partial function. A run is the list of the labels it takes; a
relation `ok` between states and labels restricts the steps, as an assumption on the environment
or as the condition of a theorem.
-/

universe u v

/-- `step s l` is `none` where `l` cannot happen in `s`. -/
structure Machine (σ : Type u) (ℓ : Type v) where
  step : σ → ℓ → Option σ

namespace Machine

variable {σ : Type u} {ℓ : Type v} {M : Machine σ ℓ} {ok ok' : σ → ℓ → Prop} {s₀ s s' : σ}
variable {ls : List ℓ}

/-- No restriction on the steps. -/
def Free : σ → ℓ → Prop := fun _ _ => True

/-- The runs from `s₀` whose steps all meet `ok`. -/
inductive Run (M : Machine σ ℓ) (ok : σ → ℓ → Prop) (s₀ : σ) : List ℓ → σ → Prop
  | nil : Run M ok s₀ [] s₀
  | snoc {ls : List ℓ} {s : σ} {l : ℓ} {s' : σ} :
      Run M ok s₀ ls s → ok s l → M.step s l = some s' → Run M ok s₀ (ls ++ [l]) s'

/-! ## Running a list of labels -/

/-- Takes the steps of `ls` in order, as long as each of them can happen and meets `ok`. -/
def exec (M : Machine σ ℓ) (ok : σ → ℓ → Prop) [∀ s l, Decidable (ok s l)] : σ → List ℓ → Option σ
  | s, [] => some s
  | s, l :: ls => if ok s l then (M.step s l).bind (fun s' => exec M ok s' ls) else none

theorem Run.trans {ms : List ℓ} (h : Run M ok s₀ ls s) (h' : Run M ok s ms s') :
    Run M ok s₀ (ls ++ ms) s' := by
  induction h' with
  | nil => simpa using h
  | snoc _ hok hstep ih => simpa [← List.append_assoc] using Run.snoc ih hok hstep

theorem Run.single {l : ℓ} (hok : ok s l) (hstep : M.step s l = some s') :
    Run M ok s [l] s' := by
  have h : Run M ok s ([] ++ [l]) s' := .snoc .nil hok hstep
  exact h

theorem Run.of_exec [∀ s l, Decidable (ok s l)] (h : M.exec ok s₀ ls = some s) :
    Run M ok s₀ ls s := by
  induction ls generalizing s₀ with
  | nil =>
      simp only [exec, Option.some.injEq] at h
      subst h
      exact .nil
  | cons l ls ih =>
      simp only [exec] at h
      split at h
      · rename_i hok
        obtain ⟨s₁, h₁, h₂⟩ := Option.bind_eq_some_iff.mp h
        exact (Run.single hok h₁).trans (ih h₂)
      · cases h

instance (s : σ) (l : ℓ) : Decidable (Free s l) := inferInstanceAs (Decidable True)

/-- A list of labels that can be run, with what is computed from the state it ends in. -/
theorem exists_run {α : Type*} [∀ s l, Decidable (ok s l)] {f : σ → α} {a : α}
    (h : (M.exec ok s₀ ls).map f = some a) : ∃ s, Run M ok s₀ ls s ∧ f s = a := by
  obtain ⟨s, hs, ha⟩ := Option.map_eq_some_iff.mp h
  exact ⟨s, .of_exec hs, ha⟩

/-! ## Rules -/

theorem Run.mono (hok : ∀ s l, ok s l → ok' s l) (h : Run M ok s₀ ls s) : Run M ok' s₀ ls s := by
  induction h with
  | nil => exact .nil
  | snoc _ hs hstep ih => exact .snoc ih (hok _ _ hs) hstep

theorem Run.free (h : Run M ok s₀ ls s) : Run M Free s₀ ls s := h.mono fun _ _ _ => trivial

/-- What holds at the start and is kept by every step holds in every state a run reaches. -/
theorem Run.invariant {I : σ → Prop} (h₀ : I s₀)
    (hstep : ∀ s l s', I s → ok s l → M.step s l = some s' → I s')
    (h : Run M ok s₀ ls s) : I s := by
  induction h with
  | nil => exact h₀
  | snoc _ hok hs ih => exact hstep _ _ _ ih hok hs

/-- The same, where the step may use that its state is reached. -/
theorem Run.invariant_of_run {I : σ → Prop} (h₀ : I s₀)
    (hstep : ∀ ls s l s', Run M ok s₀ ls s → I s → ok s l → M.step s l = some s' → I s')
    (h : Run M ok s₀ ls s) : I s := by
  induction h with
  | nil => exact h₀
  | snoc hr hok hs ih => exact hstep _ _ _ _ hr ih hok hs

/-- What holds in every state of a run may be assumed at each of its steps. -/
theorem Run.strengthen {I : σ → Prop} (hI : ∀ ls s, Run M ok s₀ ls s → I s)
    (h : Run M ok s₀ ls s) : Run M (fun s l => I s ∧ ok s l) s₀ ls s := by
  induction h with
  | nil => exact .nil
  | snoc hr hok hs ih => exact .snoc ih ⟨hI _ _ hr, hok⟩ hs

/-- Where every state of `I` meets the goal, or can take a step to the goal or to a state of `I` of
lower rank, the goal can be reached. -/
theorem exists_run_of_rank {I goal : σ → Prop} (rank : σ → Nat)
    (hstep : ∀ s, I s → goal s ∨ ∃ l s', ok s l ∧ M.step s l = some s' ∧
      (goal s' ∨ I s' ∧ rank s' < rank s))
    (hs : I s) : ∃ ls s', Run M ok s ls s' ∧ goal s' := by
  induction hn : rank s using Nat.strongRecOn generalizing s with
  | ind n ih =>
      subst hn
      rcases hstep s hs with hgoal | ⟨l, s₁, hok, hs₁, hgoal | ⟨hI, hlt⟩⟩
      · exact ⟨[], s, .nil, hgoal⟩
      · exact ⟨[l], s₁, .single hok hs₁, hgoal⟩
      · obtain ⟨ls, s', hrun, hgoal⟩ := ih _ hlt hI rfl
        exact ⟨[l] ++ ls, s', (Run.single hok hs₁).trans hrun, hgoal⟩

/-- The same, where it takes a run to come to a lower rank. -/
theorem exists_run_of_runs {I goal : σ → Prop} (rank : σ → Nat)
    (hrun : ∀ s, I s → goal s ∨ ∃ ls s', Run M ok s ls s' ∧ (goal s' ∨ I s' ∧ rank s' < rank s))
    (hs : I s) : ∃ ls s', Run M ok s ls s' ∧ goal s' := by
  induction hn : rank s using Nat.strongRecOn generalizing s with
  | ind n ih =>
      subst hn
      rcases hrun s hs with hgoal | ⟨ls, s₁, hls, hgoal | ⟨hI, hlt⟩⟩
      · exact ⟨[], s, .nil, hgoal⟩
      · exact ⟨ls, s₁, hls, hgoal⟩
      · obtain ⟨ls', s', hls', hgoal⟩ := ih _ hlt hI rfl
        exact ⟨ls ++ ls', s', hls.trans hls', hgoal⟩

/-- What does not hold at the start and holds at the end began to hold in some step. -/
theorem Run.exists_begins {P : σ → Prop} (h₀ : ¬ P s₀) (h : Run M ok s₀ ls s) (hP : P s) :
    ∃ before l after t t', ls = before ++ l :: after ∧ Run M ok s₀ before t ∧
      M.step t l = some t' ∧ ¬ P t ∧ P t' ∧ Run M ok s₀ (before ++ [l]) t' ∧ Run M ok t' after s := by
  induction h with
  | nil => exact absurd hP h₀
  | @snoc ls s l s' hr hok hs ih =>
      by_cases hbefore : P s
      · obtain ⟨before, l', after, t, t', rfl, ht, hstep, hno, hyes, ht', hafter⟩ := ih hbefore
        refine ⟨before, l', after ++ [l], t, t', by simp, ht, hstep, hno, hyes, ht', ?_⟩
        exact .snoc hafter hok hs
      · exact ⟨ls, l, [], s, s', rfl, hr, hs, hbefore, hP, .snoc hr hok hs, .nil⟩

/-! ## The steps of a run -/

/-- The steps that the labels take from `s`, each with the state it begins in. -/
def steps (M : Machine σ ℓ) : σ → List ℓ → List (σ × ℓ)
  | _, [] => []
  | s, l :: ls => (s, l) :: ((M.step s l).map (fun s' => steps M s' ls)).getD []

theorem Run.steps_append (h : Run M ok s₀ ls s) (ms : List ℓ) :
    M.steps s₀ (ls ++ ms) = M.steps s₀ ls ++ M.steps s ms := by
  induction h generalizing ms with
  | nil => rfl
  | snoc _ _ hs ih =>
      rw [List.append_assoc, ih, ih]
      simp [steps, hs]

theorem Run.steps_snoc (h : Run M ok s₀ ls s) (l : ℓ) :
    M.steps s₀ (ls ++ [l]) = M.steps s₀ ls ++ [(s, l)] := by
  rw [h.steps_append]
  cases hs : M.step s l <;> simp [steps, hs]

/-- What holds of each step that a run can take holds of all steps of a run. -/
theorem Run.forall_steps {P : σ × ℓ → Prop}
    (hstep : ∀ ls s l, Run M ok s₀ ls s → ok s l → P (s, l))
    (h : Run M ok s₀ ls s) : ∀ x ∈ M.steps s₀ ls, P x := by
  induction h with
  | nil => simp [steps]
  | snoc hr hok hs ih =>
      rw [hr.steps_snoc]
      intro x hx
      rcases List.mem_append.mp hx with hx | hx
      · exact ih x hx
      · exact List.mem_singleton.mp hx ▸ hstep _ _ _ hr hok

/-- What holds at the start, and is kept by every step that is added to the history, holds of the
steps of a run and the state it reaches. -/
theorem Run.history {I : List (σ × ℓ) → σ → Prop} (h₀ : I [] s₀)
    (hstep : ∀ ls past s l s', Run M ok s₀ ls s → I past s → ok s l → M.step s l = some s' →
      I (past ++ [(s, l)]) s')
    (h : Run M ok s₀ ls s) : I (M.steps s₀ ls) s := by
  induction h with
  | nil => exact h₀
  | snoc hr hok hs ih =>
      rw [hr.steps_snoc]
      exact hstep _ _ _ _ _ hr ih hok hs

variable {τ : Type*} {κ : Type*} {N : Machine τ κ} {okN : τ → κ → Prop}

/-- A component of a machine runs by itself when every step of the whole is a step of the
component or leaves it alone. -/
theorem Run.project (f : σ → τ)
    (hstep : ∀ s l s', ok s l → M.step s l = some s' →
      f s' = f s ∨ ∃ k, okN (f s) k ∧ N.step (f s) k = some (f s'))
    (h : Run M ok s₀ ls s) : ∃ ks, Run N okN (f s₀) ks (f s) := by
  induction h with
  | nil => exact ⟨[], .nil⟩
  | snoc _ hok hs ih =>
      obtain ⟨ks, hks⟩ := ih
      rcases hstep _ _ _ hok hs with heq | ⟨k, hk, hN⟩
      · exact ⟨ks, heq ▸ hks⟩
      · exact ⟨ks ++ [k], .snoc hks hk hN⟩

end Machine
