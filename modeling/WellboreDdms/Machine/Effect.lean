import Mathlib.Data.List.Basic

/-!
# Computations that raise and have effects

A computation on a state either returns or raises; the effects it had before it
raised stay.

- `Effect`: its monad, with `raise`, `get`, `modify`, `lift` and `mapError`.
- `Effect.Post`: the postcondition of a run from a state, on the outcome and on the
  state left. `post_bind` splits a sequence where its first part raises or returns;
  `post_lift_bind`, `post_get_bind` and `post_modify_bind` are its forms for the operations.
- `bind_lift_state`, `mapError_state`: what does not touch the state.
- `bind_eq_ok`: how a sequence of computations without effects ends.
- `onFst`, `onSnd`: a computation on one part of the state.
- `asyncWith`: an `async with` block; `asyncWith_error`, `asyncWith_ok`: it ends as its body does,
  and what follows the `yield` runs only after a body that returned.
-/

namespace Machine

universe u v

/-- A sequence returns what its second part returns on what its first returns. -/
theorem bind_eq_ok {ε : Type u} {α β : Type v} {x : Except ε α} {f : α → Except ε β} {b : β} :
    (x >>= f) = .ok b ↔ ∃ a, x = .ok a ∧ f a = .ok b := by
  cases x with
  | error e => simp [bind, Except.bind]
  | ok a => simp [bind, Except.bind]

/-- A mapped outcome is that of a return. -/
theorem map_eq_ok {ε : Type u} {α β : Type v} {x : Except ε α} {f : α → β} {b : β} :
    x.map f = .ok b ↔ ∃ a, x = .ok a ∧ f a = b := by
  cases x with
  | error e => simp [Except.map]
  | ok a => simp [Except.map]

/-- A run from a state: the outcome, and the state it leaves. -/
def Effect (σ : Type u) (ε : Type v) (α : Type u) := σ → Except ε α × σ

namespace Effect

variable {σ : Type u} {ε : Type v} {α β : Type u}

instance : Monad (Effect σ ε) where
  pure a := fun s => (.ok a, s)
  bind x f := fun s =>
    match x s with
    | (.ok a, s') => f a s'
    | (.error e, s') => (.error e, s')

instance : LawfulMonad (Effect σ ε) := by
  refine LawfulMonad.mk' _ ?_ ?_ ?_
  · intro α x
    funext s
    show (match x s with | (.ok a, s') => (.ok a, s') | (.error e, s') => (.error e, s')) = x s
    cases x s with
    | mk r t => cases r <;> rfl
  · intro α β a f
    rfl
  · intro α β γ x f g
    funext s
    show (match (match x s with | (.ok a, s') => f a s' | (.error e, s') => (.error e, s')) with
      | (.ok b, s') => g b s' | (.error e, s') => (.error e, s')) =
      match x s with
      | (.ok a, s') => (f a >>= g) s' | (.error e, s') => (.error e, s')
    cases x s with
    | mk r t => cases r <;> rfl

/-- Raises, and leaves the state. -/
def raise (e : ε) : Effect σ ε α := fun s => (.error e, s)

/-- Reads the state. -/
def get : Effect σ ε σ := fun s => (.ok s, s)

/-- Changes the state. -/
def modify (f : σ → σ) : Effect σ ε PUnit := fun s => (.ok ⟨⟩, f s)

/-- A computation without effects. -/
def lift (x : Except ε α) : Effect σ ε α := fun s => (x, s)

/-- Exceptions are raised again as others. -/
def mapError (f : ε → ε) (x : Effect σ ε α) : Effect σ ε α := fun s =>
  match x s with
  | (.ok a, s') => (.ok a, s')
  | (.error e, s') => (.error (f e), s')

/-- `x`, run from `s`, ends in an outcome and a state that satisfy `Q`. -/
def Post (x : Effect σ ε α) (s : σ) (Q : Except ε α → σ → Prop) : Prop := Q (x s).1 (x s).2

variable {s : σ} {Q : Except ε α → σ → Prop}

theorem post_pure {a : α} (h : Q (.ok a) s) : Post (pure a) s Q := h

theorem post_raise {e : ε} (h : Q (.error e) s) : Post (raise e) s Q := h

theorem Post.mono {x : Effect σ ε α} {P : Except ε α → σ → Prop} (h : Post x s P)
    (hPQ : ∀ r t, P r t → Q r t) : Post x s Q :=
  hPQ _ _ h

/-- **Sequencing.** Where the first part raises, the sequence is over. -/
theorem post_bind {x : Effect σ ε β} {f : β → Effect σ ε α} {P : Except ε β → σ → Prop}
    (hx : Post x s P) (herror : ∀ e t, P (.error e) t → Q (.error e) t)
    (hok : ∀ b t, P (.ok b) t → Post (f b) t Q) : Post (x >>= f) s Q := by
  have hrun : (x >>= f) s = match x s with
    | (.ok a, s') => f a s'
    | (.error e, s') => (.error e, s') := rfl
  unfold Post at hx ⊢
  rw [hrun]
  cases hr : x s with
  | mk r t =>
    rw [hr] at hx
    cases r with
    | ok b => exact hok b t hx
    | error e => exact herror e t hx

/-- A computation without effects, and what follows if it returns. -/
theorem post_lift_bind {x : Except ε β} {f : β → Effect σ ε α}
    (herror : ∀ e, x = .error e → Q (.error e) s) (hok : ∀ b, x = .ok b → Post (f b) s Q) :
    Post (lift x >>= f) s Q := by
  cases x with
  | ok b => exact hok b rfl
  | error e => exact herror e rfl

theorem post_get_bind {f : σ → Effect σ ε α} (h : Post (f s) s Q) : Post (get >>= f) s Q := h

theorem post_modify_bind {g : σ → σ} {f : PUnit → Effect σ ε α} (h : Post (f ⟨⟩) (g s) Q) :
    Post (modify g >>= f) s Q := h

/-- What follows without effects leaves the state. -/
theorem bind_lift_state (x : Effect σ ε β) (f : β → Except ε α) (s : σ) :
    ((x >>= fun b => lift (f b)) s).2 = (x s).2 := by
  show (match x s with
    | (.ok b, s') => (f b, s')
    | (.error e, s') => (.error e, s')).2 = (x s).2
  cases x s with
  | mk out s' => cases out <;> rfl

theorem mapError_state (f : ε → ε) (x : Effect σ ε α) (s : σ) : (mapError f x s).2 = (x s).2 := by
  unfold mapError
  cases x s with
  | mk out s' => cases out <;> rfl

theorem post_mapError {x : Effect σ ε α} {f : ε → ε} {P : Except ε α → σ → Prop}
    (hx : Post x s P) (herror : ∀ e t, P (.error e) t → Q (.error (f e)) t)
    (hok : ∀ a t, P (.ok a) t → Q (.ok a) t) : Post (mapError f x) s Q := by
  unfold Post mapError at *
  cases hr : x s with
  | mk r t =>
    rw [hr] at hx
    cases r with
    | ok a => exact hok a t hx
    | error e => exact herror e t hx

/-- After a step that returns, the rest goes on from its state. -/
theorem bind_of_ok {x : Effect σ ε β} {f : β → Effect σ ε α} {b : β} {t : σ}
    (h : x s = (.ok b, t)) : (x >>= f) s = f b t := by
  have hrun : (x >>= f) s = match x s with
    | (.ok a, s') => f a s'
    | (.error e, s') => (.error e, s') := rfl
  rw [hrun, h]

/-- After a step that raises, nothing else runs. -/
theorem bind_of_error {x : Effect σ ε β} {f : β → Effect σ ε α} {e : ε} {t : σ}
    (h : x s = (.error e, t)) : (x >>= f) s = (.error e, t) := by
  have hrun : (x >>= f) s = match x s with
    | (.ok a, s') => f a s'
    | (.error e, s') => (.error e, s') := rfl
  rw [hrun, h]

/-! ## Context managers -/

section

variable {σ τ ε α β : Type u} {s t v : σ}

/-- A computation on the first part of the state. -/
def onFst (x : Effect σ ε α) : Effect (σ × τ) ε α := fun s =>
  ((x s.1).1, ((x s.1).2, s.2))

/-- A computation on the second part of the state. -/
def onSnd (x : Effect τ ε α) : Effect (σ × τ) ε α := fun s =>
  ((x s.2).1, (s.1, (x s.2).2))

/-- A generator at its only `yield`, which no `try` is around: the value, and what it does when
it goes on from there. An exception of the body that is thrown into it leaves it at once. -/
structure Yielded (σ ε β : Type u) where
  value : β
  resume : Effect σ ε PUnit

/-- `async with enter as value: body`, for a generator made a context manager. -/
def asyncWith (enter : Effect σ ε (Yielded σ ε β)) (body : β → Effect σ ε α) : Effect σ ε α := do
  let yielded ← enter
  let result ← body yielded.value
  yielded.resume
  pure result

variable {enter : Effect σ ε (Yielded σ ε β)} {body : β → Effect σ ε α} {yielded : Yielded σ ε β}

/-- A block that is not entered. -/
theorem asyncWith_enter_error {e : ε} (h : enter s = (.error e, t)) :
    asyncWith enter body s = (.error e, t) :=
  bind_of_error h

/-- **A body that raises** ends the block, and what follows the `yield` is left out. -/
theorem asyncWith_error {e : ε} (h : enter s = (.ok yielded, t))
    (hbody : body yielded.value t = (.error e, v)) :
    asyncWith enter body s = (.error e, v) :=
  (bind_of_ok h).trans (bind_of_error hbody)

/-- **A body that returns** is followed by what stands after the `yield`. -/
theorem asyncWith_ok {a : α} (h : enter s = (.ok yielded, t))
    (hbody : body yielded.value t = (.ok a, v)) :
    asyncWith enter body s = (yielded.resume >>= fun _ => pure a) v :=
  (bind_of_ok h).trans (bind_of_ok hbody)

end

end Effect

end Machine
