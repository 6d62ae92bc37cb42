import EdgeBridge.Foundation.System

/-!
# Events that follow from their history

A property of every event of a trace, judged by what was shown before it.
-/

namespace EdgeBridge.Foundation

universe u v w

variable {σ : Type u} {Λ : Type v} {ε : Type w}

/-- Every event comes after a history that justifies it. -/
def Justified (Q : List ε → ε → Prop) (past : List ε) : Prop :=
  ∀ before event after, past = before ++ event :: after → Q before event

variable {Q : List ε → ε → Prop} {past events : List ε}

theorem justified_nil : Justified Q [] := by
  intro before event after hsplit
  simp at hsplit

theorem Justified.left (h : Justified Q (past ++ events)) : Justified Q past := by
  rintro before event after rfl
  exact h before event (after ++ events) (by simp)

/-- The new events are judged by the old ones and by the new ones before them. -/
theorem Justified.append (h : Justified Q past)
    (hnew : Justified (fun between event => Q (past ++ between) event) events) :
    Justified Q (past ++ events) := by
  intro before event after hsplit
  obtain ⟨between, rfl, hevents⟩ | ⟨rest, rfl, hrest⟩ := List.append_eq_append_iff.mp hsplit
  · exact hnew between event after hevents
  · cases rest with
    | nil => simpa using hnew [] event after hrest.symm
    | cons other rest =>
        obtain ⟨rfl, -⟩ := List.cons_eq_cons.mp hrest
        exact h before event rest rfl

theorem justified_singleton {event : ε} (h : Q [] event) : Justified Q [event] := by
  intro before other after hsplit
  obtain ⟨rfl, hcons⟩ | ⟨rest, -, hrest⟩ := List.cons_eq_append_iff.mp hsplit
  · obtain ⟨rfl, -⟩ := List.cons_eq_cons.mp hcons
    exact h
  · simp at hrest

theorem justified_of_length_le_one (hlength : events.length ≤ 1)
    (h : ∀ event ∈ events, Q [] event) : Justified Q events := by
  match events with
  | [] => exact justified_nil
  | [event] => exact justified_singleton (h event List.mem_cons_self)
  | _ :: _ :: _ =>
      simp only [List.length_cons] at hlength
      omega

theorem justified_of_mem (h : ∀ event ∈ events, ∀ before, Q before event) :
    Justified Q events := by
  rintro before event after rfl
  exact h event (by simp) before

/-- The last of the selected events, and what came after it. -/
theorem last_selected {α : Type v} {select : ε → Option α} {a : α}
    (h : (past.filterMap select).getLast? = some a) :
    ∃ before event after, past = before ++ event :: after ∧ select event = some a ∧
      ∀ other ∈ after, select other = none := by
  induction past using List.reverseRecOn with
  | nil => simp at h
  | append_singleton past event ih =>
      rw [List.filterMap_append] at h
      cases hevent : select event with
      | none =>
          simp only [List.filterMap_cons, hevent, List.filterMap_nil, List.append_nil] at h
          obtain ⟨before, last, after, rfl, hlast, hafter⟩ := ih h
          refine ⟨before, last, after ++ [event], by simp, hlast, fun other hother => ?_⟩
          rcases List.mem_append.mp hother with hold | hnew
          · exact hafter other hold
          · rw [List.mem_singleton.mp hnew, hevent]
      | some b =>
          simp only [List.filterMap_cons, hevent, List.filterMap_nil, List.getLast?_concat,
            Option.some.injEq] at h
          exact ⟨past, event, [], rfl, hevent.trans (congrArg some h), by simp⟩

/-- The run rule: what every step keeps and how it justifies its events. -/
theorem System.justified_run {S : System σ Λ ε} {P : List ε → σ → Λ → Prop}
    {I : List ε → σ → Prop} {s : σ} (start : I [] s)
    (next : ∀ past m l t, I past m → P past m l → S.step m l = some t →
      I (past ++ S.observe m l) t ∧
        Justified (fun between event => Q (past ++ between) event) (S.observe m l))
    {ls : List Λ} {t : σ} (along : S.Along P [] s ls) (run : S.exec s ls = some t) :
    I (S.trace s ls) t ∧ Justified Q (S.trace s ls) :=
  S.run_invariant (I := fun past t => I past t ∧ Justified Q past)
    ⟨start, justified_nil⟩
    (fun past m l t _ hm hl hstep =>
      have hnext := next past m l t hm.1 hl hstep
      ⟨hnext.1, hm.2.append hnext.2⟩) along run

end EdgeBridge.Foundation
