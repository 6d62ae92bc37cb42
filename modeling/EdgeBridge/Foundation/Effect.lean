import Mathlib.Logic.Basic

/-!
# Computations that change a state and may raise

An exception leaves the state as it is at that moment, and a handler goes on from
there.  A triple speaks of both ends of a computation: the value that it returns and
the exception that it raises.
-/

namespace EdgeBridge.Foundation

universe u v w

/-- A computation returns or raises, and leaves a state either way. -/
def Effect (σ : Type u) (ε : Type v) (α : Type w) : Type (max u v w) :=
  σ → Except ε α × σ

namespace Effect

variable {σ : Type u} {ε : Type v} {α β : Type w}

def done (a : α) : Effect σ ε α := fun s => (.ok a, s)

def raise (error : ε) : Effect σ ε α := fun s => (.error error, s)

def andThen (body : Effect σ ε α) (next : α → Effect σ ε β) : Effect σ ε β := fun s =>
  match body s with
  | (.ok a, t) => next a t
  | (.error error, t) => (.error error, t)

/-- `try: body` with one handler for every exception. -/
def handle (body : Effect σ ε α) (handler : ε → Effect σ ε α) : Effect σ ε α := fun s =>
  match body s with
  | (.ok a, t) => (.ok a, t)
  | (.error error, t) => handler error t

instance : Monad (Effect σ ε) where
  pure := done
  bind := andThen

def read : Effect σ ε σ := fun s => (.ok s, s)

def readAs (f : σ → α) : Effect σ ε α := fun s => (.ok (f s), s)

def change (f : σ → σ) : Effect σ ε PUnit := fun s => (.ok ⟨⟩, f s)

def ofExcept (result : Except ε α) : Effect σ ε α := fun s => (result, s)

/-- A computation that leaves the state as it was when it raises. -/
def atomic (body : σ → Except ε (α × σ)) : Effect σ ε α := fun s =>
  match body s with
  | .ok (a, t) => (.ok a, t)
  | .error error => (.error error, s)

theorem bind_of_ok {body : Effect σ ε α} {a : α} {s t : σ} (h : body s = (.ok a, t))
    (next : α → Effect σ ε β) : (body >>= next) s = next a t := by
  change andThen body next s = _
  rw [andThen, h]

theorem done_bind (a : α) (next : α → Effect σ ε β) : done a >>= next = next a := rfl

theorem readAs_bind (f : σ → α) (next : α → Effect σ ε β) (s : σ) :
    (readAs f >>= next) s = next (f s) s := rfl

theorem change_bind (f : σ → σ) (next : PUnit → Effect σ ε β) (s : σ) :
    (change f >>= next) s = next ⟨⟩ (f s) := rfl

theorem ofExcept_ok_bind (a : α) (next : α → Effect σ ε β) :
    ofExcept (.ok a) >>= next = next a := rfl

/-! ## Triples -/

/-- The two ends of a computation. -/
def Ends (returns : α → σ → Prop) (raises : ε → σ → Prop) : Except ε α × σ → Prop
  | (.ok a, s) => returns a s
  | (.error error, s) => raises error s

def Triple (before : σ → Prop) (body : Effect σ ε α) (returns : α → σ → Prop)
    (raises : ε → σ → Prop) : Prop :=
  ∀ s, before s → Ends returns raises (body s)

theorem Ends.weaken {returns returns' : α → σ → Prop} {raises raises' : ε → σ → Prop}
    {result : Except ε α × σ} (h : Ends returns raises result)
    (hreturns : ∀ a s, returns a s → returns' a s)
    (hraises : ∀ error s, raises error s → raises' error s) :
    Ends returns' raises' result := by
  obtain ⟨answer, s⟩ := result
  cases answer with
  | ok a => exact hreturns a s h
  | error error => exact hraises error s h

/-- A property that holds at either end. -/
theorem Ends.state {p : σ → Prop} {result : Except ε α × σ}
    (h : Ends (fun _ s => p s) (fun _ s => p s) result) : p result.2 := by
  obtain ⟨answer, s⟩ := result
  cases answer with
  | ok a => exact h
  | error error => exact h

namespace Triple

variable {before before' : σ → Prop} {returns returns' : α → σ → Prop}
  {raises raises' : ε → σ → Prop} {body : Effect σ ε α}

theorem weaken (h : Triple before body returns raises)
    (hbefore : ∀ s, before' s → before s)
    (hreturns : ∀ a s, returns a s → returns' a s)
    (hraises : ∀ error s, raises error s → raises' error s) :
    Triple before' body returns' raises' :=
  fun s hs => (h s (hbefore s hs)).weaken hreturns hraises

theorem done {a : α} (h : ∀ s, before s → returns a s) :
    Triple before (Effect.done a) returns raises := h

theorem raise {error : ε} (h : ∀ s, before s → raises error s) :
    Triple before (Effect.raise error : Effect σ ε α) returns raises := h

theorem read {returns : σ → σ → Prop} (h : ∀ s, before s → returns s s) :
    Triple before (Effect.read : Effect σ ε σ) returns raises := h

/-- The value that is read is the state. -/
theorem read_self {after : σ → Prop} (h : ∀ s, before s → after s) :
    Triple before (Effect.read : Effect σ ε σ) (fun start s => start = s ∧ after s) raises :=
  fun s hs => ⟨rfl, h s hs⟩

theorem change {f : σ → σ} {returns : PUnit → σ → Prop}
    (h : ∀ s, before s → returns ⟨⟩ (f s)) :
    Triple before (Effect.change f : Effect σ ε PUnit) returns raises := h

theorem readAs {f : σ → α} (h : ∀ s, before s → returns (f s) s) :
    Triple before (Effect.readAs f : Effect σ ε α) returns raises := h

theorem ofExcept {result : Except ε α}
    (hreturns : ∀ a s, result = .ok a → before s → returns a s)
    (hraises : ∀ error s, result = .error error → before s → raises error s) :
    Triple before (Effect.ofExcept result : Effect σ ε α) returns raises := by
  intro s hs
  cases result with
  | ok a => exact hreturns a s rfl hs
  | error error => exact hraises error s rfl hs

theorem bind {next : α → Effect σ ε β} {between : α → σ → Prop} {returns : β → σ → Prop}
    (h : Triple before body between raises)
    (hnext : ∀ a, Triple (between a) (next a) returns raises) :
    Triple before (body >>= next) returns raises := by
  intro s hs
  have hbody := h s hs
  change Ends returns raises (andThen body next s)
  unfold andThen
  cases hrun : body s with
  | mk answer t =>
      rw [hrun] at hbody
      cases answer with
      | ok a => exact hnext a t hbody
      | error error => exact hbody

theorem handle {handler : ε → Effect σ ε α} {between : ε → σ → Prop}
    (h : Triple before body returns between)
    (hhandler : ∀ error, Triple (between error) (handler error) returns raises) :
    Triple before (body.handle handler) returns raises := by
  intro s hs
  have hbody := h s hs
  unfold Effect.handle
  cases hrun : body s with
  | mk answer t =>
      rw [hrun] at hbody
      cases answer with
      | ok a => exact hbody
      | error error => exact hhandler error t hbody

theorem ite {p : Prop} [Decidable p] {other : Effect σ ε α}
    (hthen : p → Triple before body returns raises)
    (helse : ¬ p → Triple before other returns raises) :
    Triple before (if p then body else other) returns raises := by
  by_cases hp : p
  · rw [if_pos hp]
    exact hthen hp
  · rw [if_neg hp]
    exact helse hp

theorem and {other : σ → Prop} {returns' : α → σ → Prop} {raises' : ε → σ → Prop}
    (h : Triple before body returns raises) (h' : Triple other body returns' raises') :
    Triple (fun s => before s ∧ other s) body (fun a s => returns a s ∧ returns' a s)
      (fun error s => raises error s ∧ raises' error s) := by
  intro s hs
  have hfirst := h s hs.1
  have hsecond := h' s hs.2
  cases hrun : body s with
  | mk answer t =>
      rw [hrun] at hfirst hsecond
      cases answer with
      | ok a => exact ⟨hfirst, hsecond⟩
      | error error => exact ⟨hfirst, hsecond⟩

/-- Facts about the state before the computation are at hand during it. -/
theorem of_start (h : ∀ s, before s → Triple (· = s) body returns raises) :
    Triple before body returns raises :=
  fun s hs => h s hs s rfl

end Triple

end Effect

end EdgeBridge.Foundation
