import EdgeBridge.Foundation.System

/-!
# What a state can lead to

A state leads to another one when some labels, all of an allowed kind, run from the
first to the second.  Progress is a measure: if every state that is not done leads to
one with a smaller measure, it leads to one that is done.
-/

namespace EdgeBridge.Foundation

universe u v w

namespace System

variable {σ : Type u} {Λ : Type v} {ε : Type w} {S : System σ Λ ε} {allowed : Λ → Prop}

def Leads (S : System σ Λ ε) (allowed : Λ → Prop) (s t : σ) : Prop :=
  ∃ ls, (∀ l ∈ ls, allowed l) ∧ S.exec s ls = some t

theorem Leads.refl (s : σ) : S.Leads allowed s s := ⟨[], by simp, rfl⟩

theorem Leads.single {s t : σ} {l : Λ} (h : S.step s l = some t) (hallowed : allowed l) :
    S.Leads allowed s t :=
  ⟨[l], by simpa using hallowed, S.exec_cons_eq_some.mpr ⟨t, h, rfl⟩⟩

theorem Leads.trans {s m t : σ} (first : S.Leads allowed s m) (second : S.Leads allowed m t) :
    S.Leads allowed s t := by
  obtain ⟨ls, hls, hfirst⟩ := first
  obtain ⟨ms, hms, hsecond⟩ := second
  refine ⟨ls ++ ms, ?_, S.exec_append_eq_some.mpr ⟨m, hfirst, hsecond⟩⟩
  intro l hl
  rcases List.mem_append.mp hl with hl | hl
  · exact hls l hl
  · exact hms l hl

theorem Leads.weaken {allowed' : Λ → Prop} {s t : σ} (h : S.Leads allowed s t)
    (hallowed : ∀ l, allowed l → allowed' l) : S.Leads allowed' s t := by
  obtain ⟨ls, hls, run⟩ := h
  exact ⟨ls, fun l hl => hallowed l (hls l hl), run⟩

/-- The invariant rule. -/
theorem Leads.invariant {I : σ → Prop} {s t : σ} (h : S.Leads allowed s t) (start : I s)
    (next : ∀ m l u, I m → allowed l → S.step m l = some u → I u) : I t := by
  obtain ⟨ls, hls, run⟩ := h
  induction ls generalizing s with
  | nil =>
      simp only [exec_nil, Option.some.injEq] at run
      exact run ▸ start
  | cons l ls ih =>
      obtain ⟨m, hstep, hrest⟩ := S.exec_cons_eq_some.mp run
      have hm := next s l m start (hls l List.mem_cons_self) hstep
      exact ih hm (fun other hother => hls other (List.mem_cons_of_mem _ hother)) hrest

/-- The progress rule. -/
theorem leads_of_measure (S : System σ Λ ε) (allowed : Λ → Prop) (I done : σ → Prop)
    (measure : σ → Nat)
    (progress : ∀ s, I s → ¬ done s → ∃ t, S.Leads allowed s t ∧ I t ∧ measure t < measure s)
    {s : σ} (start : I s) : ∃ t, S.Leads allowed s t ∧ I t ∧ done t := by
  induction hmeasure : measure s using Nat.strongRecOn generalizing s with
  | ind n ih =>
      by_cases hdone : done s
      · exact ⟨s, .refl s, start, hdone⟩
      · obtain ⟨m, hleads, hm, hless⟩ := progress s start hdone
        obtain ⟨t, hrest, ht, hfinal⟩ := ih (measure m) (hmeasure ▸ hless) hm rfl
        exact ⟨t, hleads.trans hrest, ht, hfinal⟩

end System

end EdgeBridge.Foundation
