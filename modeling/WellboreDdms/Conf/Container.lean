import WellboreDdms.Machine.Effect
import WellboreDdms.Machine.Run
import WellboreDdms.Records.Record

/-!
# Configuration containers

A `ConfigurationContainer` holds the environment variables of the service. The variables it
declares are objects of the class, and so every container has the same ones; those that are
added to it are its own.

- `EnvVar`, `EnvVar.load`: a variable, and how it takes its value from an environment.
- `Heap`, `Attributes`: the variables by reference, and the `__dict__` of a container.
- `withLoadAll`, `reload`, `add`, `addFromEnv`: the calls.
-/

namespace WellboreDdms

open Python Machine

variable {ι ν : Type}

/-- What `load` reads and writes of a variable; `none` is `None`. -/
structure EnvVar (ν : Type) where
  key : String
  default : Option String := none
  value : Option ν := none
  allowedValues : Option (List (Option ν)) := none
  factory : Option (String → Except Raised (Option ν)) := none

section

variable [BEq ν] (text : String → ν)

namespace EnvVar

/-- The value in the environment, or the default, as the factory transforms it. -/
def image (v : EnvVar ν) (environ : Dict String String) : Except Raised (Option ν) :=
  match (Dict.get environ v.key).or v.default with
  | none => .ok none
  | some s =>
    match v.factory with
    | none => .ok (some (text s))
    | some factory => factory s

/-- A variable without a list of values allows all. -/
def allows (v : EnvVar ν) (value : Option ν) : Bool :=
  match v.allowedValues with
  | none => true
  | some values => values.contains value

/-- A value that is not allowed leaves the variable as it is. -/
def load (v : EnvVar ν) (environ : Dict String String) : Except Raised (EnvVar ν) := do
  let value ← v.image text environ
  if v.allows value then return { v with value := value } else return v

end EnvVar

/-- The arguments of `add_from_env`. -/
structure AddFromEnv (ν : Type) where
  envVarKey : String
  attributeName : Option String := none
  default : Option String := none
  allowedValues : Option (List (Option ν)) := none
  factory : Option (String → Except Raised (Option ν)) := none
  override : Bool := false

/-- What a contextual loader does to its container. -/
inductive LoaderCall (ν : Type) where
  | addFromEnv (args : AddFromEnv ν)
  | setAttribute (name : String) (value : Option ν)

/-- It reads the values of the variables, by attribute, and then makes its calls. -/
abbrev ContextualLoader (ν : Type) := (String → Option (Option ν)) → List (LoaderCall ν)

/-- What a container's attribute can be. -/
inductive Attribute (ν : Type) where
  | envVar (ref : Nat)
  | environment (environ : Dict String String)
  | loader (f : ContextualLoader ν)
  | other (value : Option ν)

/-- `__dict__`, in the order of the attributes. -/
abbrev Attributes (ν : Type) := Dict String (Attribute ν)

/-- The variables; the references from `next` on are free. -/
structure Heap (ν : Type) where
  envVars : Nat → EnvVar ν
  next : Nat

namespace Heap

/-- The variable becomes a new one in place. -/
def store (h : Heap ν) (ref : Nat) (v : EnvVar ν) : Heap ν :=
  { h with envVars := Function.update h.envVars ref v }

omit [BEq ν] in
@[simp] theorem store_self (h : Heap ν) (ref : Nat) (v : EnvVar ν) :
    (h.store ref v).envVars ref = v :=
  Function.update_self ..

omit [BEq ν] in
theorem store_of_ne (h : Heap ν) {ref ref' : Nat} (v : EnvVar ν) (hne : ref' ≠ ref) :
    (h.store ref v).envVars ref' = h.envVars ref' :=
  Function.update_of_ne hne ..

/-- A new variable gets a place of its own. -/
def alloc (h : Heap ν) (v : EnvVar ν) : Heap ν :=
  { envVars := Function.update h.envVars h.next v, next := h.next + 1 }

end Heap

namespace Attributes

/-- The variables that `env_vars` yields. -/
def refs (attributes : Attributes ν) : List Nat :=
  attributes.filterMap fun p =>
    match p.2 with
    | .envVar ref => some ref
    | _ => none

/-- `self._environment_dict`, as `load` uses it. -/
def environ (attributes : Attributes ν) : Except Raised (Dict String String) :=
  match Dict.get attributes "_environment_dict" with
  | some (.environment environ) => .ok environ
  | _ => .error .typeError

/-- The loader to call; `none` is `None`. -/
def contextualLoader (attributes : Attributes ν) : Except Raised (Option (ContextualLoader ν)) :=
  match Dict.get attributes "_contextual_loader" with
  | some (.loader f) => .ok (some f)
  | some (.other none) | none => .ok none
  | some _ => .error .typeError

/-- The values of the variables, by attribute. -/
def values (attributes : Attributes ν) (h : Heap ν) (name : String) : Option (Option ν) :=
  match Dict.get attributes name with
  | some (.envVar ref) => some (h.envVars ref).value
  | _ => none

end Attributes

/-- A call works on the attributes of its container and on the variables. -/
abbrev ConfEffect (ν : Type) := Effect (Attributes ν × Heap ν) Raised

/-- `var.load(self._environment_dict)`, for each of the variables. -/
def loadEach : List Nat → ConfEffect ν PUnit
  | [] => pure ⟨⟩
  | ref :: refs => do
    let (attributes, h) ← Effect.get
    let environ ← Effect.lift attributes.environ
    let v ← Effect.lift ((h.envVars ref).load text environ)
    Effect.modify fun p => (p.1, p.2.store ref v)
    loadEach refs

/-- `add`: an attribute that is there is replaced only if told so. -/
def add (name : String) (value : Attribute ν) (override : Bool) : ConfEffect ν PUnit := do
  let (attributes, _) ← Effect.get
  if !override && Dict.contains attributes name then
    Effect.raise (.keyError (name ++ " already exists"))
  else Effect.modify fun p => (Dict.set p.1 name value, p.2)

/-- `add_from_env`: the variable is loaded before it is added. -/
def addFromEnv (args : AddFromEnv ν) : ConfEffect ν PUnit := do
  let (attributes, h) ← Effect.get
  let envVar : EnvVar ν :=
    { key := args.envVarKey, default := args.default, allowedValues := args.allowedValues,
      factory := args.factory }
  let environ ← Effect.lift attributes.environ
  let v ← Effect.lift (envVar.load text environ)
  Effect.modify fun p => (p.1, p.2.alloc v)
  add ((args.attributeName.filter (· ≠ "")).getD args.envVarKey) (.envVar h.next) args.override

/-- The calls of a contextual loader, until one raises. -/
def loaderCalls : List (LoaderCall ν) → ConfEffect ν PUnit
  | [] => pure ⟨⟩
  | .addFromEnv args :: calls => do
    addFromEnv text args
    loaderCalls calls
  | .setAttribute name value :: calls => do
    add name (.other value) true
    loaderCalls calls

/-- `reload`, once the environment is set: the variables are loaded, and then the contextual
loader is called. -/
def loadAll : ConfEffect ν PUnit := do
  let (attributes, _) ← Effect.get
  loadEach text attributes.refs
  let (attributes, h) ← Effect.get
  match ← Effect.lift attributes.contextualLoader with
  | some f => loaderCalls text (f (attributes.values h))
  | none => pure ⟨⟩

/-- The container reads another environment from now on. -/
def Attributes.withEnvironment (attributes : Attributes ν) (environ : Dict String String) :
    Attributes ν :=
  Dict.set attributes "_environment_dict" (.environment environ)

/-- `reload`. -/
def reload (environ? : Option (Dict String String)) : ConfEffect ν PUnit := do
  match environ? with
  | some environ => Effect.modify fun p => (p.1.withEnvironment environ, p.2)
  | none => pure ⟨⟩
  loadAll text

end

/-! ## Loading -/

section

variable [BEq ν] {text : String → ν}

namespace EnvVar

variable (text) in
/-- The variable after `load`; it is as before if the factory raises. -/
def settled (v : EnvVar ν) (environ : Dict String String) : EnvVar ν :=
  match v.load text environ with
  | .ok w => w
  | .error _ => v

/-- A value that can be read is taken if it is allowed. -/
theorem load_eq {v : EnvVar ν} {environ : Dict String String} {value : Option ν}
    (h : v.image text environ = .ok value) :
    v.load text environ = .ok (if v.allows value then { v with value := value } else v) := by
  rw [load, h]
  show (if v.allows value = true then _ else _) = _
  split
  · rfl
  · rfl

theorem settled_eq {v : EnvVar ν} {environ : Dict String String} {value : Option ν}
    (h : v.image text environ = .ok value) :
    v.settled text environ = if v.allows value then { v with value := value } else v := by
  rw [settled, load_eq h]

/-- The value of a variable has no part in what it takes from an environment. -/
theorem image_settled (v : EnvVar ν) (environ environ' : Dict String String) :
    (v.settled text environ).image text environ' = v.image text environ' := by
  cases h : v.image text environ with
  | error e =>
    rw [settled, load, h]
    rfl
  | ok value =>
    rw [settled_eq h]
    split
    · rfl
    · rfl

/-- Loading twice from one environment is loading once. -/
theorem settled_settled (v : EnvVar ν) (environ : Dict String String) :
    (v.settled text environ).settled text environ = v.settled text environ := by
  cases h : v.image text environ with
  | error e =>
    have hsame : v.settled text environ = v := by
      rw [settled, load, h]
      rfl
    rw [hsame, hsame]
  | ok value =>
    have himage : (v.settled text environ).image text environ = .ok value := by
      rw [image_settled, h]
    rw [settled_eq himage, settled_eq h]
    by_cases hallows : v.allows value = true
    · rw [if_pos hallows]
      exact if_pos hallows
    · rw [if_neg hallows, if_neg hallows]

end EnvVar

variable (text) in
/-- The variables that are loaded, until a factory raises. -/
def Heap.loaded (h : Heap ν) (environ : Dict String String) : List Nat → List Nat :=
  List.takeWhile fun ref => ((h.envVars ref).image text environ).isOk

/-- A variable that was loaded is read again in the same way. -/
theorem Heap.loaded_store (h : Heap ν) (environ : Dict String String) (ref : Nat) :
    (h.store ref ((h.envVars ref).settled text environ)).loaded text environ =
      h.loaded text environ := by
  unfold Heap.loaded
  congr 1
  funext ref'
  by_cases href : ref' = ref
  · subst href
    rw [Heap.store_self, EnvVar.image_settled]
  · rw [Heap.store_of_ne h _ href]

/-- **The loop over the variables** settles those it gets to, and touches no other. -/
theorem loadEach_spec (refs : List Nat) {attributes : Attributes ν} {environ : Dict String String}
    (henviron : attributes.environ = .ok environ) (h : Heap ν) :
    Effect.Post (loadEach text refs) (attributes, h) fun out p =>
      p.1 = attributes ∧ p.2.next = h.next ∧
      (∀ ref, p.2.envVars ref = if ref ∈ h.loaded text environ refs then
        (h.envVars ref).settled text environ else h.envVars ref) ∧
      (out = .ok ⟨⟩ ↔ h.loaded text environ refs = refs) := by
  induction refs generalizing h with
  | nil => exact ⟨rfl, rfl, fun _ => rfl, iff_of_true rfl rfl⟩
  | cons ref refs ih =>
    refine Effect.post_get_bind ?_
    show Effect.Post (Effect.lift attributes.environ >>= _) _ _
    rw [henviron]
    show Effect.Post (Effect.lift ((h.envVars ref).load text environ) >>= _) _ _
    cases himage : (h.envVars ref).image text environ with
    | error e =>
      have hload : (h.envVars ref).load text environ = .error e := by
        rw [EnvVar.load, himage]
        rfl
      have hnil : h.loaded text environ (ref :: refs) = [] := by
        rw [Heap.loaded, List.takeWhile_cons, himage]
        rfl
      rw [hload, hnil]
      exact ⟨rfl, rfl, fun _ => rfl, iff_of_false nofun nofun⟩
    | ok value =>
      have hload : (h.envVars ref).load text environ =
          .ok ((h.envVars ref).settled text environ) := by
        rw [EnvVar.load_eq himage, EnvVar.settled_eq himage]
      have hcons : h.loaded text environ (ref :: refs) = ref :: h.loaded text environ refs := by
        rw [Heap.loaded, List.takeWhile_cons, himage]
        rfl
      rw [hload, hcons]
      refine Effect.post_lift_bind nofun fun v hv => ?_
      cases hv
      refine Effect.post_modify_bind (Effect.Post.mono (ih _) ?_)
      rintro out p ⟨hattributes, hnext, hvars, hout⟩
      rw [Heap.loaded_store] at hvars hout
      refine ⟨hattributes, hnext, fun ref' => ?_, by rw [hout, List.cons_inj_right]⟩
      rw [hvars]
      by_cases href : ref' = ref
      · -- a variable that is there twice is loaded twice, the second time without effect
        subst href
        rw [Heap.store_self, if_pos List.mem_cons_self, EnvVar.settled_settled, ite_self]
      · rw [Heap.store_of_ne h _ href]
        simp only [List.mem_cons, href, false_or]

variable (text) in
/-- The variables after the loop over those of a container. -/
def Attributes.settle (attributes : Attributes ν) (h : Heap ν) : Heap ν :=
  match attributes.environ with
  | .error _ => h
  | .ok environ =>
    { h with envVars := fun ref =>
        if ref ∈ h.loaded text environ attributes.refs then (h.envVars ref).settled text environ
        else h.envVars ref }

theorem Attributes.settle_next (attributes : Attributes ν) (h : Heap ν) :
    (attributes.settle text h).next = h.next := by
  unfold settle
  cases attributes.environ <;> rfl

/-- The variables are loaded one after the other, until one raises. -/
theorem loadEach_settles (attributes : Attributes ν) (h : Heap ν) :
    Effect.Post (loadEach text attributes.refs) (attributes, h) fun _ p =>
      p = (attributes, attributes.settle text h) := by
  unfold Attributes.settle
  cases henviron : attributes.environ with
  | error e =>
    cases attributes.refs with
    | nil => rfl
    | cons ref refs =>
      refine Effect.post_get_bind ?_
      show Effect.Post (Effect.lift attributes.environ >>= _) _ _
      rw [henviron]
      rfl
  | ok environ =>
    refine (loadEach_spec attributes.refs henviron h).mono ?_
    rintro _ ⟨attributes', envVars, next⟩ ⟨hattributes, hnext, hvars, -⟩
    obtain rfl : attributes' = attributes := hattributes
    obtain rfl : next = h.next := hnext
    have hvars : envVars = _ := funext hvars
    rw [hvars]

/-! ## What the other calls leave alone -/

/-- The variables that were there are as they were. -/
structure Heap.Grows (h h' : Heap ν) : Prop where
  next : h.next ≤ h'.next
  envVars : ∀ ref < h.next, h'.envVars ref = h.envVars ref

/-- The variables of the container are there. -/
def Attributes.Allocated (attributes : Attributes ν) (h : Heap ν) : Prop :=
  ∀ ref ∈ attributes.refs, ref < h.next

/-- A call adds variables and attributes only. -/
structure Extends (p p' : Attributes ν × Heap ν) : Prop where
  grows : p.2.Grows p'.2
  allocated : p.1.Allocated p.2 → p'.1.Allocated p'.2

end

section

variable {text : String → ν}

theorem Heap.Grows.refl (h : Heap ν) : h.Grows h := ⟨Nat.le_refl _, fun _ _ => rfl⟩

theorem Heap.Grows.trans {h h' h'' : Heap ν} (hle : h.Grows h') (hle' : h'.Grows h'') :
    h.Grows h'' where
  next := hle.next.trans hle'.next
  envVars := fun ref href =>
    (hle'.envVars ref (href.trans_le hle.next)).trans (hle.envVars ref href)

theorem Heap.Grows.alloc (h : Heap ν) (v : EnvVar ν) : h.Grows (h.alloc v) where
  next := Nat.le_succ _
  envVars := fun _ href => Function.update_of_ne (Nat.ne_of_lt href) ..

/-- What was allocated stays so in a larger heap. -/
theorem Attributes.Allocated.mono {attributes : Attributes ν} {h h' : Heap ν}
    (hall : attributes.Allocated h) (hle : h.next ≤ h'.next) : attributes.Allocated h' :=
  fun ref href => (hall ref href).trans_le hle

/-- The variables that a container refers to. -/
theorem Attributes.mem_refs {attributes : Attributes ν} {ref : Nat} :
    ref ∈ attributes.refs ↔ ∃ name, (name, Attribute.envVar ref) ∈ attributes := by
  rw [refs, List.mem_filterMap]
  constructor
  · rintro ⟨⟨name, value⟩, hmem, hvalue⟩
    cases value with
    | envVar ref' =>
      cases hvalue
      exact ⟨name, hmem⟩
    | environment | loader | other => cases hvalue
  · rintro ⟨name, hmem⟩
    exact ⟨_, hmem, rfl⟩

/-- An attribute that is set refers to an allocated variable. -/
theorem Attributes.Allocated.set {attributes : Attributes ν} {h : Heap ν}
    (hall : attributes.Allocated h) (name : String) {value : Attribute ν}
    (hvalue : ∀ ref, value = .envVar ref → ref < h.next) :
    Attributes.Allocated (Dict.set attributes name value) h := by
  intro ref href
  obtain ⟨name', hmem⟩ := mem_refs.mp href
  rcases Dict.mem_of_mem_set hmem with hmem | heq
  · exact hall ref (mem_refs.mpr ⟨name', hmem⟩)
  · exact hvalue ref (Prod.mk.inj heq).2.symm

theorem Extends.refl (p : Attributes ν × Heap ν) : Extends p p := ⟨.refl _, id⟩

theorem Extends.trans {p p' p'' : Attributes ν × Heap ν} (h : Extends p p') (h' : Extends p' p'') :
    Extends p p'' :=
  ⟨h.grows.trans h'.grows, h'.allocated ∘ h.allocated⟩

/-- **`add`** extends the container. -/
theorem add_extends (name : String) {value : Attribute ν} (override : Bool)
    (p : Attributes ν × Heap ν) (hvalue : ∀ ref, value = .envVar ref → ref < p.2.next) :
    Effect.Post (add name value override) p fun _ => Extends p := by
  refine Effect.post_get_bind ?_
  show Effect.Post (if _ then _ else _) _ _
  split
  · exact Effect.post_raise (.refl p)
  · exact ⟨.refl _, fun hall => hall.set name hvalue⟩

variable [BEq ν]

/-- **`add_from_env`** extends the container, and the heap by its variable. -/
theorem addFromEnv_extends (args : AddFromEnv ν) (p : Attributes ν × Heap ν) :
    Effect.Post (addFromEnv text args) p fun _ => Extends p := by
  refine Effect.post_get_bind ?_
  refine Effect.post_lift_bind (fun _ _ => .refl p) fun environ _ => ?_
  refine Effect.post_lift_bind (fun _ _ => .refl p) fun v _ => ?_
  refine Effect.post_modify_bind ?_
  have halloc : Extends p (p.1, p.2.alloc v) :=
    ⟨.alloc p.2 v, fun hall => hall.mono (Nat.le_succ _)⟩
  refine (add_extends _ args.override (p.1, p.2.alloc v) ?_).mono fun _ _ h => halloc.trans h
  rintro ref ⟨⟩
  exact Nat.lt_succ_self _

/-- The calls of a loader extend the container. -/
theorem loaderCalls_extends (calls : List (LoaderCall ν)) (p : Attributes ν × Heap ν) :
    Effect.Post (loaderCalls text calls) p fun _ => Extends p := by
  induction calls generalizing p with
  | nil => exact Effect.post_pure (.refl p)
  | cons call calls ih =>
    cases call with
    | addFromEnv args =>
      refine Effect.post_bind (addFromEnv_extends args p) (fun _ _ h => h) fun _ p' h => ?_
      exact (ih p').mono fun _ _ h' => h.trans h'
    | setAttribute name value =>
      refine Effect.post_bind (add_extends name true p nofun) (fun _ _ h => h) fun _ p' h => ?_
      exact (ih p').mono fun _ _ h' => h.trans h'

/-- **Loading a container** settles its variables, and adds others if it has a loader. -/
theorem loadAll_spec (attributes : Attributes ν) (h : Heap ν) :
    Effect.Post (loadAll text) (attributes, h) fun out p =>
      Extends (attributes, attributes.settle text h) p ∧
      (attributes.contextualLoader = .ok none →
        p = (attributes, attributes.settle text h) ∧
          (out = .ok ⟨⟩ ↔ (loadEach text attributes.refs (attributes, h)).1 = .ok ⟨⟩)) := by
  refine Effect.post_get_bind ?_
  have hsettles : Effect.Post (loadEach text attributes.refs) (attributes, h) fun out p =>
      p = (attributes, attributes.settle text h) ∧
        out = (loadEach text attributes.refs (attributes, h)).1 :=
    ⟨loadEach_settles attributes h, rfl⟩
  refine Effect.post_bind hsettles ?_ ?_
  · rintro e _ ⟨rfl, hout⟩
    exact ⟨.refl _, fun _ => ⟨rfl, by rw [hout]⟩⟩
  · rintro u _ ⟨rfl, hout⟩
    refine Effect.post_get_bind ?_
    refine Effect.post_lift_bind (fun e he => ⟨.refl _, fun hnone => ?_⟩) fun loader? hloader => ?_
    · cases he.symm.trans hnone
    · cases loader? with
      | none =>
        exact Effect.post_pure ⟨.refl _, fun _ => ⟨rfl, iff_of_true rfl hout.symm⟩⟩
      | some f =>
        refine (loaderCalls_extends _ _).mono fun _ p hp => ⟨hp, fun hnone => ?_⟩
        cases hloader.symm.trans hnone

end

end WellboreDdms
