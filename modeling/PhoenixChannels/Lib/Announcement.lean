import PhoenixChannels.Lib.History
import PhoenixChannels.Lib.Machine

/-!
# Answers that come before their announcement

A machine that answers somebody in one step, and announces the state that it answered about in a
later one. Whoever reads the announcement once the answer is there may still read an old one.
-/

universe u v

namespace Machine

open History

variable {σ : Type u} {ℓ : Type v} {M : Machine σ ℓ} {ok : σ → ℓ → Prop} {s₀ s s' : σ} {l : ℓ}
variable {ls : List ℓ}

/-- `P` holds of each step of a run with those before it. -/
theorem Run.always {P : List (σ × ℓ) → σ × ℓ → Prop}
    (hstep : ∀ ls s l, Run M ok s₀ ls s → ok s l → P (M.steps s₀ ls) (s, l))
    (h : Run M ok s₀ ls s) : Always P (M.steps s₀ ls) := by
  induction h with
  | nil => exact .nil
  | snoc hr hok hs ih =>
      rw [hr.steps_snoc]
      exact ih.append (hstep _ _ _ hr hok)

/-- The answer is `answered`; until a step of `announces`, the machine is `pending`, and what it shows
does not change; that step makes it show what was answered. -/
structure Announces (M : Machine σ ℓ) (ok : σ → ℓ → Prop) (s₀ : σ) (answered pending shows : σ → Prop)
    (announces : ℓ → Prop) : Prop where
  stays : ∀ ls s l s', Run M ok s₀ ls s → M.step s l = some s' → answered s → answered s'
  begins : ∀ ls s l s', Run M ok s₀ ls s → M.step s l = some s' → ¬ answered s → answered s' →
    pending s'
  waits : ∀ ls s l s', Run M ok s₀ ls s → M.step s l = some s' → pending s → ¬ announces l →
    pending s' ∧ (shows s' ↔ shows s)
  ends : ∀ ls s l s', Run M ok s₀ ls s → M.step s l = some s' → pending s → announces l → shows s'
  fresh : ¬ answered s₀

variable {answered pending shows : σ → Prop} {announces : ℓ → Prop}

/-- Since the answer came, what it says has been announced. -/
def AnnouncedSince (answered : σ → Prop) (announces : ℓ → Prop) (past : List (σ × ℓ)) : Prop :=
  ∃ x ∈ past, announces x.2 ∧ answered x.1

/-- Since the answer came, what it says has been shown. -/
def ShownSince (answered shows : σ → Prop) (past : List (σ × ℓ)) (s : σ) : Prop :=
  ∃ y ∈ past.map Prod.fst ++ [s], answered y ∧ shows y

/-- An answer that has been shown, or is neither shown nor announced. -/
inductive AnswerCase (answered pending shows : σ → Prop) (announces : ℓ → Prop)
    (past : List (σ × ℓ)) (s : σ) : Prop
  | unanswered : ¬ answered s → (∀ x ∈ past, ¬ answered x.1) →
      AnswerCase answered pending shows announces past s
  | waiting : answered s → pending s →
      (∀ x ∈ past, answered x.1 → ¬ announces x.2 ∧ (shows x.1 ↔ shows s)) →
      AnswerCase answered pending shows announces past s
  | announced : answered s → AnnouncedSince answered announces past →
      ShownSince answered shows past s → AnswerCase answered pending shows announces past s

theorem ShownSince.append {past : List (σ × ℓ)} (h : ShownSince answered shows past s) :
    ShownSince answered shows (past ++ [(s, l)]) s' := by
  obtain ⟨y, hy, hshown⟩ := h
  refine ⟨y, ?_, hshown⟩
  rw [List.map_append]
  exact List.mem_append_left _ hy

theorem AnswerCase.step {past : List (σ × ℓ)} (hM : Announces M ok s₀ answered pending shows announces)
    (hrun : Run M ok s₀ ls s) (hs : M.step s l = some s')
    (h : AnswerCase answered pending shows announces past s) :
    AnswerCase answered pending shows announces (past ++ [(s, l)]) s' := by
  have append : ∀ {P : σ × ℓ → Prop}, (∀ x ∈ past, P x) → P (s, l) → ∀ x ∈ past ++ [(s, l)], P x := by
    intro P hpast hlast x hx
    rcases List.mem_append.mp hx with hx | hx
    · exact hpast x hx
    · exact List.mem_singleton.mp hx ▸ hlast
  cases h with
  | unanswered hno hpast =>
      by_cases hyes : answered s'
      · refine .waiting hyes (hM.begins _ _ _ _ hrun hs hno hyes) ?_
        exact append (fun x hx hx' => absurd hx' (hpast x hx)) (fun h => absurd h hno)
      · exact .unanswered hyes (append hpast hno)
  | waiting hyes hpending hpast =>
      have hyes' := hM.stays _ _ _ _ hrun hs hyes
      by_cases hl : announces l
      · refine .announced hyes' ⟨(s, l), by simp, hl, hyes⟩ ⟨s', by simp, hyes', ?_⟩
        exact hM.ends _ _ _ _ hrun hs hpending hl
      · obtain ⟨hpending', hsame⟩ := hM.waits _ _ _ _ hrun hs hpending hl
        refine .waiting hyes' hpending' (append ?_ fun _ => ⟨hl, hsame.symm⟩)
        intro x hx hx'
        obtain ⟨hx₁, hx₂⟩ := hpast x hx hx'
        exact ⟨hx₁, hx₂.trans hsame.symm⟩
  | announced hyes hannounced hshown =>
      refine .announced (hM.stays _ _ _ _ hrun hs hyes) ?_ hshown.append
      obtain ⟨x, hx, h⟩ := hannounced
      exact ⟨x, List.mem_append_left _ hx, h⟩

/-- What was answered has been shown if and only if it has been announced, or is shown anyway. -/
theorem Announces.shownSince_iff (hM : Announces M ok s₀ answered pending shows announces)
    (h : Run M ok s₀ ls s) (hanswered : answered s) :
    ShownSince answered shows (M.steps s₀ ls) s ↔
      AnnouncedSince answered announces (M.steps s₀ ls) ∨ shows s := by
  have hcase : AnswerCase answered pending shows announces (M.steps s₀ ls) s := by
    refine h.history (.unanswered hM.fresh (by simp)) ?_
    intro ls past s l s' hrun ih _ hs
    exact ih.step hM hrun hs
  cases hcase with
  | unanswered hno => exact absurd hanswered hno
  | waiting _ _ hpast =>
      constructor
      · rintro ⟨y, hy, hyes, hshows⟩
        rcases List.mem_append.mp hy with hy | hy
        · obtain ⟨x, hx, rfl⟩ := List.mem_map.mp hy
          exact .inr ((hpast x hx hyes).2.mp hshows)
        · exact .inr (List.mem_singleton.mp hy ▸ hshows)
      · rintro (⟨x, hx, hannounces, hyes⟩ | hshows)
        · exact absurd hannounces (hpast x hx hyes).1
        · exact ⟨s, by simp, hanswered, hshows⟩
  | announced _ hannounced hshown => exact ⟨fun _ => .inl hannounced, fun _ => hshown⟩

end Machine
