import WellboreDdms.Python.Value

/-!
# Places in a document

A document is a value of nested dictionaries; a place in it is the list of the keys that lead
there.

- `getIn`: the value at a place; `mapIn` puts another one there, if there is one.
- `getIn_mapIn_self`, `getIn_mapIn_of_ne`: the change is seen at its place and not at a place
  the keys of which part from it.
- `mapIn_eq_self`, `mapIn_congr`: what is put there depends on the value found.
-/

namespace Python

namespace Value

/-- The value at a place. -/
def getIn : List String → Value → Option Value
  | [], v => some v
  | key :: keys, .dict items => (Dict.get items key).bind (getIn keys)
  | _ :: _, _ => Option.none

/-- The value at a place is replaced; a document without it stays as it is. -/
def mapIn (f : Value → Value) : List String → Value → Value
  | [], v => f v
  | key :: keys, .dict items =>
    match Dict.get items key with
    | some v => .dict (Dict.set items key (mapIn f keys v))
    | Option.none => .dict items
  | _ :: _, v => v

/-- The first key of a path is looked up in the items. -/
@[simp] theorem getIn_cons (key : String) (keys : List String) (items : Dict String Value) :
    getIn (key :: keys) (.dict items) = (Dict.get items key).bind (getIn keys) := rfl

/-- A path of two parts is followed part by part. -/
theorem getIn_append (p q : List String) (v : Value) :
    getIn (p ++ q) v = (getIn p v).bind (getIn q) := by
  induction p generalizing v with
  | nil => rfl
  | cons key p ih =>
    cases v with
    | dict items =>
      simp only [List.cons_append, getIn_cons, Option.bind_assoc]
      exact Option.bind_congr fun w _ => ih w
    | _ => rfl

/-- What is a dictionary stays one, unless it is replaced itself. -/
theorem mapIn_dict (f : Value → Value) (key : String) (keys : List String)
    (items : Dict String Value) : ∃ items', mapIn f (key :: keys) (.dict items) = .dict items' := by
  rw [mapIn]
  cases Dict.get items key with
  | some v => exact ⟨_, rfl⟩
  | none => exact ⟨_, rfl⟩

/-- The changed value stands where the value was. -/
theorem getIn_mapIn_self (f : Value → Value) (p : List String) (v : Value) :
    getIn p (mapIn f p v) = (getIn p v).map f := by
  induction p generalizing v with
  | nil => rfl
  | cons key p ih =>
    cases v with
    | dict items =>
      cases hget : Dict.get items key with
      | some w => simp [mapIn, hget, ih]
      | none => simp [mapIn, hget]
    | _ => rfl

/-- A place that parts from the one that is changed. -/
theorem getIn_mapIn_of_ne (f : Value → Value) {a b : String} (h : a ≠ b) (p q r : List String)
    (v : Value) : getIn (p ++ a :: q) (mapIn f (p ++ b :: r) v) = getIn (p ++ a :: q) v := by
  induction p generalizing v with
  | nil =>
    cases v with
    | dict items =>
      cases hget : Dict.get items b with
      | some w => simp [mapIn, hget, Dict.get_set_of_ne _ _ h]
      | none => simp [mapIn, hget]
    | _ => rfl
  | cons key p ih =>
    cases v with
    | dict items =>
      cases hget : Dict.get items key with
      | some w => simp [mapIn, hget, ih]
      | none => simp [mapIn, hget]
    | _ => rfl

/-- **Functions that agree** on the value at the path change the tree alike. -/
theorem mapIn_congr {f g : Value → Value} {p : List String} {v : Value}
    (h : ∀ w, getIn p v = some w → f w = g w) : mapIn f p v = mapIn g p v := by
  induction p generalizing v with
  | nil => exact h v rfl
  | cons key p ih =>
    cases v with
    | dict items =>
      cases hget : Dict.get items key with
      | some w =>
        have hrest : mapIn f p w = mapIn g p w := ih fun x hx => h x (by simp [hget, hx])
        simp only [mapIn, hget, hrest]
      | none => simp only [mapIn, hget]
    | _ => rfl

/-- Nothing is changed by putting back what is found. -/
theorem mapIn_id (p : List String) (v : Value) : mapIn id p v = v := by
  induction p generalizing v with
  | nil => rfl
  | cons key p ih =>
    cases v with
    | dict items =>
      cases hget : Dict.get items key with
      | some w => simp only [mapIn, hget, ih, Dict.set_of_get hget]
      | none => simp only [mapIn, hget]
    | _ => rfl

/-- A function that keeps the value at the path keeps the tree. -/
theorem mapIn_eq_self {f : Value → Value} {p : List String} {v : Value}
    (h : ∀ w, getIn p v = some w → f w = w) : mapIn f p v = v :=
  (mapIn_congr h).trans (mapIn_id p v)

/-- Changes under one key are one change of the value there. -/
theorem foldl_mapIn_cons {α : Type} (f : Value → Value) (key : String) (place : α → List String)
    (xs : List α) {items : Dict String Value} {v : Value} (h : Dict.get items key = some v) :
    xs.foldl (fun w x => mapIn f (key :: place x) w) (.dict items) =
      .dict (Dict.set items key (xs.foldl (fun w x => mapIn f (place x) w) v)) := by
  induction xs generalizing items v with
  | nil => rw [List.foldl_nil, List.foldl_nil, Dict.set_of_get h]
  | cons x xs ih =>
    have hstep : mapIn f (key :: place x) (.dict items) =
        .dict (Dict.set items key (mapIn f (place x) v)) := by simp only [mapIn, h]
    rw [List.foldl_cons, List.foldl_cons, hstep, ih (Dict.get_set_self _ _ _), Dict.set_set]

/-- Changes of places that are not there. -/
theorem foldl_mapIn_eq_self {α : Type} {f : Value → Value} {place : α → List String} {xs : List α}
    {v : Value} (h : ∀ x ∈ xs, ∀ w, getIn (place x) v = some w → f w = w) :
    xs.foldl (fun w x => mapIn f (place x) w) v = v := by
  induction xs with
  | nil => rfl
  | cons x xs ih =>
    obtain ⟨hx, hxs⟩ := List.forall_mem_cons.mp h
    rw [List.foldl_cons, mapIn_eq_self hx, ih hxs]

end Value

end Python
