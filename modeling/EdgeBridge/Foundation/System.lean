import Mathlib.Data.List.Induction

/-!
# Executable labelled systems

A system is a partial step function: `step s l = none` means that the label
`l` is not enabled in `s`.  Every step also shows an observer a list of events,
so that a property of a whole run is a property of its trace.  The rules of
this file turn a fact about one step into a fact about every run.
-/

namespace EdgeBridge.Foundation

universe u v w u' v' w'

structure System (σ : Type u) (Λ : Type v) (ε : Type w) where
  init : σ
  step : σ → Λ → Option σ
  observe : σ → Λ → List ε

namespace System

variable {σ : Type u} {Λ : Type v} {ε : Type w} (S : System σ Λ ε)

/-- Execute the labels in order; `none` if one of them is not enabled. -/
def exec : σ → List Λ → Option σ
  | s, [] => some s
  | s, l :: ls => (S.step s l).bind fun s' => exec s' ls

/-- The events shown by the enabled steps of a run. -/
def trace : σ → List Λ → List ε
  | _, [] => []
  | s, l :: ls =>
      match S.step s l with
      | none => []
      | some s' => S.observe s l ++ trace s' ls

/-- `P` holds of every step of the run, judged by the events shown so far and
the state before the step. -/
def Along (P : List ε → σ → Λ → Prop) : List ε → σ → List Λ → Prop
  | _, _, [] => True
  | past, s, l :: ls =>
      P past s l ∧ ∀ s', S.step s l = some s' → Along P (past ++ S.observe s l) s' ls

/-- A run from `s` to `t` that showed the events `past`. -/
def Ran (s : σ) (past : List ε) (t : σ) : Prop :=
  ∃ ls, S.exec s ls = some t ∧ S.trace s ls = past

def Reachable (s : σ) : Prop := ∃ ls, S.exec S.init ls = some s

@[simp] theorem exec_nil (s : σ) : S.exec s [] = some s := rfl

theorem exec_cons_eq_some {s t : σ} {l : Λ} {ls : List Λ} :
    S.exec s (l :: ls) = some t ↔
      ∃ s', S.step s l = some s' ∧ S.exec s' ls = some t := by
  simp [exec, Option.bind_eq_some_iff]

/-- What is observed does not change the runs. -/
theorem exec_congr {ε' : Type w'} {T : System σ Λ ε'} (h : S.step = T.step) (s : σ)
    (ls : List Λ) : S.exec s ls = T.exec s ls := by
  induction ls generalizing s with
  | nil => rfl
  | cons l ls ih =>
      simp only [exec, h, ih]

theorem exec_append_eq_some {s t : σ} {ls ms : List Λ} :
    S.exec s (ls ++ ms) = some t ↔
      ∃ m, S.exec s ls = some m ∧ S.exec m ms = some t := by
  induction ls generalizing s with
  | nil => simp
  | cons l ls ih =>
      simp only [List.cons_append, exec_cons_eq_some, ih]
      constructor
      · rintro ⟨s', hstep, m, hls, hms⟩
        exact ⟨m, ⟨s', hstep, hls⟩, hms⟩
      · rintro ⟨m, ⟨s', hstep, hls⟩, hms⟩
        exact ⟨s', hstep, m, hls, hms⟩

theorem exec_snoc_eq_some {s t : σ} {ls : List Λ} {l : Λ} :
    S.exec s (ls ++ [l]) = some t ↔
      ∃ m, S.exec s ls = some m ∧ S.step m l = some t := by
  simp [exec_append_eq_some, exec_cons_eq_some]

theorem trace_append {s m : σ} {ls : List Λ} (ms : List Λ)
    (h : S.exec s ls = some m) :
    S.trace s (ls ++ ms) = S.trace s ls ++ S.trace m ms := by
  induction ls generalizing s with
  | nil =>
      simp only [exec_nil, Option.some.injEq] at h
      subst h
      rfl
  | cons l ls ih =>
      obtain ⟨s', hstep, hls⟩ := S.exec_cons_eq_some.mp h
      simp [trace, hstep, ih hls]

theorem trace_snoc {s m t : σ} {ls : List Λ} {l : Λ}
    (h : S.exec s ls = some m) (hstep : S.step m l = some t) :
    S.trace s (ls ++ [l]) = S.trace s ls ++ S.observe m l := by
  rw [S.trace_append [l] h]
  simp [trace, hstep]

theorem along_append {P : List ε → σ → Λ → Prop} {past : List ε} {s m : σ}
    {ls ms : List Λ} (h : S.exec s ls = some m) :
    S.Along P past s (ls ++ ms) ↔
      S.Along P past s ls ∧ S.Along P (past ++ S.trace s ls) m ms := by
  induction ls generalizing past s with
  | nil =>
      simp only [exec_nil, Option.some.injEq] at h
      subst h
      simp [Along, trace]
  | cons l ls ih =>
      obtain ⟨s', hstep, hls⟩ := S.exec_cons_eq_some.mp h
      simp [Along, trace, hstep, ih hls, and_assoc]

theorem along_snoc {P : List ε → σ → Λ → Prop} {past : List ε} {s m : σ}
    {ls : List Λ} {l : Λ} (h : S.exec s ls = some m) :
    S.Along P past s (ls ++ [l]) ↔
      S.Along P past s ls ∧ P (past ++ S.trace s ls) m l := by
  rw [S.along_append h]
  simp [Along]

/-- A condition on the labels alone. -/
theorem along_of_mem {P : Λ → Prop} {ls : List Λ} (h : ∀ l ∈ ls, P l) (past : List ε)
    (s : σ) : S.Along (fun _ _ l => P l) past s ls := by
  induction ls generalizing past s with
  | nil => trivial
  | cons l ls ih =>
      exact ⟨h l List.mem_cons_self,
        fun s' _ => ih (fun m hm => h m (List.mem_cons_of_mem l hm)) _ s'⟩

theorem along_true (past : List ε) (s : σ) (ls : List Λ) :
    S.Along (fun _ _ _ => True) past s ls :=
  S.along_of_mem (fun _ _ => trivial) past s

/-- Along a given run a decidable condition can be evaluated. -/
instance decidableAlong (P : List ε → σ → Λ → Prop)
    [∀ past s l, Decidable (P past s l)] :
    ∀ (ls : List Λ) (past : List ε) (s : σ), Decidable (S.Along P past s ls)
  | [], _, _ => isTrue trivial
  | l :: ls, past, s =>
      match hstep : S.step s l with
      | none => decidable_of_iff (P past s l) (by simp [Along, hstep])
      | some s' =>
          have := decidableAlong P ls (past ++ S.observe s l) s'
          decidable_of_iff (P past s l ∧ S.Along P (past ++ S.observe s l) s' ls)
            (by simp [Along, hstep])

/-- An event of the trace was shown by one of the steps. -/
theorem mem_trace {s t : σ} {ls : List Λ} {e : ε} (run : S.exec s ls = some t)
    (h : e ∈ S.trace s ls) :
    ∃ before l after m m', ls = before ++ l :: after ∧ S.exec s before = some m ∧
      S.step m l = some m' ∧ e ∈ S.observe m l := by
  induction ls generalizing s with
  | nil => simp [trace] at h
  | cons l ls ih =>
      obtain ⟨s', hstep, hls⟩ := S.exec_cons_eq_some.mp run
      simp only [trace, hstep, List.mem_append] at h
      rcases h with hhead | htail
      · exact ⟨[], l, ls, s, s', rfl, rfl, hstep, hhead⟩
      · obtain ⟨before, l', after, m, m', rfl, hbefore, hl', he⟩ := ih hls htail
        exact ⟨l :: before, l', after, m, m', rfl,
          S.exec_cons_eq_some.mpr ⟨s', hstep, hbefore⟩, hl', he⟩

theorem Ran.snoc {S : System σ Λ ε} {s m t : σ} {past : List ε} {l : Λ}
    (h : S.Ran s past m) (hstep : S.step m l = some t) :
    S.Ran s (past ++ S.observe m l) t := by
  rcases h with ⟨ls, run, rfl⟩
  exact ⟨ls ++ [l], S.exec_snoc_eq_some.mpr ⟨m, run, hstep⟩, S.trace_snoc run hstep⟩

/-! ## Run rules -/

/--
The run rule: a property of the trace so far and the current state that every
step taken under `P` preserves holds at the end of every run along `P`.
-/
theorem run_invariant {P : List ε → σ → Λ → Prop} {I : List ε → σ → Prop} {s : σ}
    (start : I [] s)
    (next : ∀ past m l t, S.Ran s past m → I past m → P past m l → S.step m l = some t →
      I (past ++ S.observe m l) t)
    {ls : List Λ} {t : σ} (along : S.Along P [] s ls)
    (run : S.exec s ls = some t) : I (S.trace s ls) t := by
  induction ls using List.reverseRecOn generalizing t with
  | nil =>
      simp only [exec_nil, Option.some.injEq] at run
      exact run ▸ start
  | append_singleton ls l ih =>
      obtain ⟨m, hls, hstep⟩ := S.exec_snoc_eq_some.mp run
      obtain ⟨hbefore, hlast⟩ := (S.along_snoc hls).mp along
      rw [S.trace_snoc hls hstep]
      exact next _ _ _ _ ⟨ls, hls, rfl⟩ (ih hbefore hls) hlast hstep

/-- The run rule without a condition on the steps. -/
theorem trace_invariant {I : List ε → σ → Prop} {s : σ} (start : I [] s)
    (next : ∀ past m l t, S.Ran s past m → I past m → S.step m l = some t →
      I (past ++ S.observe m l) t)
    {past : List ε} {t : σ} (ran : S.Ran s past t) : I past t := by
  rcases ran with ⟨ls, run, rfl⟩
  exact S.run_invariant (P := fun _ _ _ => True) start
    (fun past m l t hran hm _ hstep => next past m l t hran hm hstep)
    (S.along_true _ _ _) run

theorem reachable_invariant {I : σ → Prop} (start : I S.init)
    (next : ∀ m l t, I m → S.step m l = some t → I t)
    {s : σ} (h : S.Reachable s) : I s := by
  obtain ⟨ls, run⟩ := h
  exact S.trace_invariant (I := fun _ m => I m) start
    (fun _ m l t _ hm hstep => next m l t hm hstep) ⟨ls, run, rfl⟩

theorem reachable_init : S.Reachable S.init := ⟨[], rfl⟩

theorem Reachable.step {S : System σ Λ ε} {s t : σ} {l : Λ}
    (h : S.Reachable s) (hstep : S.step s l = some t) : S.Reachable t := by
  obtain ⟨ls, run⟩ := h
  exact ⟨ls ++ [l], S.exec_snoc_eq_some.mpr ⟨s, run, hstep⟩⟩

theorem Reachable.exec {S : System σ Λ ε} {s t : σ} {ls : List Λ}
    (h : S.Reachable s) (run : S.exec s ls = some t) : S.Reachable t := by
  obtain ⟨before, hbefore⟩ := h
  exact ⟨before ++ ls, S.exec_append_eq_some.mpr ⟨s, hbefore, run⟩⟩

end System

/-! ## Refinement -/

/--
A forward simulation: each concrete step is matched by the abstract steps
`ops s l`, possibly none, and `view` keeps of its events what they show.
-/
structure Simulation {σ : Type u} {Λ : Type v} {ε : Type w} {σ' : Type u'}
    {Λ' : Type v'} {ε' : Type w'} (concrete : System σ Λ ε)
    (abstract : System σ' Λ' ε') where
  abs : σ → σ'
  ops : σ → Λ → List Λ'
  view : ε → Option ε'
  init : abs concrete.init = abstract.init
  step : ∀ s l t, concrete.Reachable s → concrete.step s l = some t →
    abstract.exec (abs s) (ops s l) = some (abs t)
  observe : ∀ s l t, concrete.Reachable s → concrete.step s l = some t →
    abstract.trace (abs s) (ops s l) = (concrete.observe s l).filterMap view

namespace Simulation

variable {σ : Type u} {Λ : Type v} {ε : Type w} {σ' : Type u'} {Λ' : Type v'}
  {ε' : Type w'} {concrete : System σ Λ ε} {abstract : System σ' Λ' ε'}

/-- Every concrete run is an abstract run with the same visible events. -/
theorem exec (sim : Simulation concrete abstract) {s t : σ} {ls : List Λ}
    (h : concrete.Reachable s) (run : concrete.exec s ls = some t) :
    ∃ ms, abstract.exec (sim.abs s) ms = some (sim.abs t) ∧
      abstract.trace (sim.abs s) ms = (concrete.trace s ls).filterMap sim.view := by
  induction ls generalizing s with
  | nil =>
      simp only [System.exec_nil, Option.some.injEq] at run
      exact ⟨[], by simp [run], rfl⟩
  | cons l ls ih =>
      obtain ⟨m, hstep, hls⟩ := concrete.exec_cons_eq_some.mp run
      obtain ⟨ms, hms, htrace⟩ := ih (h.step hstep) hls
      have hops := sim.step s l m h hstep
      refine ⟨sim.ops s l ++ ms, abstract.exec_append_eq_some.mpr ⟨_, hops, hms⟩, ?_⟩
      rw [abstract.trace_append ms hops, htrace, sim.observe s l m h hstep]
      simp [System.trace, hstep]

/-- An invariant of the abstract runs holds of every concrete run. -/
theorem run_invariant (sim : Simulation concrete abstract)
    {I : List ε' → σ' → Prop} {past : List ε} {t : σ}
    (holds : ∀ past' s', abstract.Ran abstract.init past' s' → I past' s')
    (ran : concrete.Ran concrete.init past t) :
    I (past.filterMap sim.view) (sim.abs t) := by
  rcases ran with ⟨ls, run, rfl⟩
  obtain ⟨ms, hms, htrace⟩ := sim.exec concrete.reachable_init run
  rw [sim.init] at hms htrace
  exact holds _ _ ⟨ms, hms, htrace⟩

end Simulation

end EdgeBridge.Foundation
