import WellboreDdms.Conf.Container
import WellboreDdms.Python.Text
import Mathlib.Data.Fintype.Basic
import Mathlib.Data.List.TakeWhile
import Mathlib.Tactic.FinCases

/-!
# Calls on many containers

Each container is meant to have its own configuration, and a reload is meant to make its
variables what the environment says.

- `Memory`, `step`: the containers of a process, and a call on one of them.
- `Lawful`: a call changes no value of another container, and a reload without a loader leaves
  every variable with the value of the environment, or with none if it is not allowed.
- `Harmless`: the variables that are loaded keep their values where they are shared, and a value
  that is not allowed finds none from before.
- `isolated_and_reloaded`: the calls of a run are lawful exactly if they are harmless.
- `declaredVariables`: the variables of the service; two containers of them disturb each other
  (`containers_corrupted`).
-/

namespace WellboreDdms

open Python Machine

variable {ι ν : Type}

/-- The calls to a container. -/
inductive ContainerCall (ν : Type) where
  | withLoadAll (environ : Dict String String) (loader : Option (ContextualLoader ν))
  | reload (environ? : Option (Dict String String))
  | add (name : String) (value : Attribute ν) (override : Bool)
  | addFromEnv (args : AddFromEnv ν)

/-- The variables of the process, and its containers. -/
structure Memory (ι ν : Type) where
  heap : Heap ν
  containers : ι → Option (Attributes ν)

section

variable (declared : List (String × EnvVar ν))

/-- The declared variables are in the class, and there is no container. -/
def Memory.start : Memory ι ν where
  heap := ⟨fun ref => (declared[ref]?.map Prod.snd).getD { key := "" }, declared.length⟩
  containers := fun _ => none

/-- `__init__`: the fields are those of the class. -/
def initialAttributes (environ : Dict String String) (loader : Option (ContextualLoader ν)) :
    Attributes ν :=
  (declared.zipIdx.map fun p => (p.1.1, Attribute.envVar p.2)) ++
    [("_environment_dict", .environment environ),
      ("_contextual_loader", loader.elim (.other none) .loader)]

variable [BEq ν] (text : String → ν)

namespace ContainerCall

/-- The attributes the call finds, or makes. -/
def attributes (m : Memory ι ν) (c : ι) : ContainerCall ν → Option (Attributes ν)
  | .withLoadAll environ loader => some (initialAttributes declared environ loader)
  | _ => m.containers c

/-- What a call does, once the container has its environment. -/
def effect : ContainerCall ν → ConfEffect ν PUnit
  | .withLoadAll _ _ => WellboreDdms.reload text none
  | .reload environ? => WellboreDdms.reload text environ?
  | .add name value override => WellboreDdms.add name value override
  | .addFromEnv args => WellboreDdms.addFromEnv text args

/-- A variable that is added is there. -/
def argumentExists (h : Heap ν) : ContainerCall ν → Prop
  | .add _ (.envVar ref) _ => ref < h.next
  | _ => True

instance (h : Heap ν) (call : ContainerCall ν) : Decidable (call.argumentExists h) :=
  match call with
  | .add _ (.envVar ref) _ => inferInstanceAs (Decidable (ref < h.next))
  | .add _ (.environment _) _ | .add _ (.loader _) _ | .add _ (.other _) _ => isTrue trivial
  | .withLoadAll _ _ | .reload _ | .addFromEnv _ => isTrue trivial

/-- The call assigns its container: `with_load_all` does so only if it returns. -/
def binds (call : ContainerCall ν) (out : Except Raised PUnit) : Bool :=
  match call with
  | .withLoadAll _ _ => out.isOk
  | _ => true

end ContainerCall

variable [DecidableEq ι]

/-- A call on the container `c`, whatever its outcome. -/
def Memory.step (m : Memory ι ν) (e : ι × ContainerCall ν) : Option (Memory ι ν) :=
  match e.2.attributes declared m e.1 with
  | none => none
  | some attributes =>
    if e.2.argumentExists m.heap then
      let r := e.2.effect text (attributes, m.heap)
      some
        { heap := r.2.2
          containers :=
            if e.2.binds r.1 then Function.update m.containers e.1 (some r.2.1)
            else m.containers }
    else none

end

/-! ## The law, and where it holds -/

section

variable (text : String → ν) [BEq ν]

namespace EnvVar

/-- The variable has the value of the environment, or none if it is not allowed. -/
def Reads (v : EnvVar ν) (environ : Dict String String) (value? : Option ν) : Prop :=
  ∃ value, v.image text environ = .ok value ∧ value? = if v.allows value then value else none

/-- Loading the variable does not change its value. -/
def Keeps (v : EnvVar ν) (environ : Dict String String) : Prop :=
  match v.image text environ with
  | .ok value => v.allows value = true → v.value = value
  | .error _ => True

/-- A value that is not allowed finds none from before. -/
def Vacant (v : EnvVar ν) (environ : Dict String String) : Prop :=
  match v.image text environ with
  | .ok value => v.allows value = false → v.value = none
  | .error _ => True

instance [DecidableEq ν] (v : EnvVar ν) (environ : Dict String String) :
    Decidable (v.Keeps text environ) :=
  match h : v.image text environ with
  | .ok value => decidable_of_iff (v.allows value = true → v.value = value) (by rw [Keeps, h])
  | .error _ => isTrue (by rw [Keeps, h]; trivial)

instance [DecidableEq ν] (v : EnvVar ν) (environ : Dict String String) :
    Decidable (v.Vacant text environ) :=
  match h : v.image text environ with
  | .ok value => decidable_of_iff (v.allows value = false → v.value = none) (by rw [Vacant, h])
  | .error _ => isTrue (by rw [Vacant, h]; trivial)

end EnvVar

namespace Attributes

/-- No contextual loader is to be called. -/
def unassisted (attributes : Attributes ν) : Bool :=
  match attributes.contextualLoader with
  | .ok none => true
  | _ => false

/-- Loading the container does not change the value of the variable. -/
def Keeps (attributes : Attributes ν) (h : Heap ν) (ref : Nat) : Prop :=
  match attributes.environ with
  | .ok environ =>
    ref ∈ h.loaded text environ attributes.refs → (h.envVars ref).Keeps text environ
  | .error _ => True

instance [DecidableEq ν] (attributes : Attributes ν) (h : Heap ν) (ref : Nat) :
    Decidable (attributes.Keeps text h ref) :=
  match henviron : attributes.environ with
  | .ok environ =>
    decidable_of_iff (ref ∈ h.loaded text environ attributes.refs →
      (h.envVars ref).Keeps text environ) (by rw [Keeps, henviron])
  | .error _ => isTrue (by rw [Keeps, henviron]; trivial)

end Attributes

namespace ContainerCall

/-- The container as the call loads it, if it does. -/
def loading (attributes : Attributes ν) : ContainerCall ν → Option (Attributes ν)
  | .withLoadAll _ _ | .reload none => some attributes
  | .reload (some environ) => some (attributes.withEnvironment environ)
  | .add _ _ _ | .addFromEnv _ => none

/-- If the call reloads the container from an environment without a loader, and no factory
raises, then values that are not allowed find none from before. -/
def LeavesNone (attributes : Attributes ν) (h : Heap ν) : ContainerCall ν → Prop
  | .reload (some environ) =>
    let attributes := attributes.withEnvironment environ
    attributes.unassisted = true →
      (∀ ref ∈ attributes.refs, ((h.envVars ref).image text environ).isOk = true) →
      ∀ ref ∈ attributes.refs, (h.envVars ref).Vacant text environ
  | _ => True

instance [DecidableEq ν] (attributes : Attributes ν) (h : Heap ν) (call : ContainerCall ν) :
    Decidable (call.LeavesNone text attributes h) :=
  match call with
  | .reload (some environ) => inferInstanceAs (Decidable
    ((attributes.withEnvironment environ).unassisted = true →
      (∀ ref ∈ (attributes.withEnvironment environ).refs,
        ((h.envVars ref).image text environ).isOk = true) →
      ∀ ref ∈ (attributes.withEnvironment environ).refs, (h.envVars ref).Vacant text environ))
  | .withLoadAll _ _ | .reload none | .add _ _ _ | .addFromEnv _ => isTrue trivial

end ContainerCall

variable [DecidableEq ι] (declared : List (String × EnvVar ν))

/-- The other containers have the attributes and the values they had. -/
def SameElsewhere (c : ι) (m t : Memory ι ν) : Prop :=
  ∀ c' ≠ c, t.containers c' = m.containers c' ∧
    ∀ attributes, m.containers c' = some attributes →
      ∀ ref ∈ attributes.refs, (t.heap.envVars ref).value = (m.heap.envVars ref).value

/-- No variable of another container changes, and a reload that returns, without a loader, makes
the variables what the environment says. -/
structure Lawful (m : Memory ι ν) (e : ι × ContainerCall ν) (t : Memory ι ν) : Prop where
  isolated : SameElsewhere e.1 m t
  reloaded : ∀ environ attributes, e.2 = .reload (some environ) →
    m.containers e.1 = some attributes →
    (attributes.withEnvironment environ).unassisted = true →
    (reload text (some environ) (attributes, m.heap)).1 = .ok ⟨⟩ →
    ∀ ref ∈ (attributes.withEnvironment environ).refs,
      (m.heap.envVars ref).Reads text environ (t.heap.envVars ref).value

/-- The variables the call loads keep their values where another container has them, and no
value is left over. -/
def Harmless (m : Memory ι ν) (e : ι × ContainerCall ν) : Prop :=
  ∀ attributes ∈ e.2.attributes declared m e.1,
    (∀ loading ∈ e.2.loading attributes, ∀ c, c ≠ e.1 → ∀ other ∈ m.containers c,
      ∀ ref ∈ other.refs, loading.Keeps text m.heap ref) ∧
    e.2.LeavesNone text attributes m.heap

instance [DecidableEq ν] [Fintype ι] (m : Memory ι ν) (e : ι × ContainerCall ν) :
    Decidable (Harmless text declared m e) :=
  inferInstanceAs (Decidable (∀ attributes ∈ e.2.attributes declared m e.1,
    (∀ loading ∈ e.2.loading attributes, ∀ c, c ≠ e.1 → ∀ other ∈ m.containers c,
      ∀ ref ∈ other.refs, loading.Keeps text m.heap ref) ∧
    e.2.LeavesNone text attributes m.heap))

end

section

variable {text : String → ν} [BEq ν]

namespace EnvVar

/-- Loading keeps the value exactly if the condition says so. -/
theorem settled_value_iff (v : EnvVar ν) (environ : Dict String String) :
    (v.settled text environ).value = v.value ↔ v.Keeps text environ := by
  cases himage : v.image text environ with
  | error e =>
    rw [Keeps, himage, settled, load, himage]
    exact iff_of_true rfl trivial
  | ok value =>
    rw [Keeps, himage, settled_eq himage]
    by_cases hallows : v.allows value = true
    · rw [if_pos hallows]
      exact ⟨fun h _ => h.symm, fun h => (h hallows).symm⟩
    · rw [if_neg hallows]
      exact iff_of_true rfl fun h => absurd h hallows

/-- What a variable keeps when its value is not allowed is from before. -/
theorem reads_settled_iff {v : EnvVar ν} {environ : Dict String String}
    (hok : (v.image text environ).isOk = true) :
    v.Reads text environ (v.settled text environ).value ↔ v.Vacant text environ := by
  cases himage : v.image text environ with
  | error e =>
    rw [himage] at hok
    cases hok
  | ok value =>
    rw [Vacant, himage, settled_eq himage]
    have hreads : ∀ value?, v.Reads text environ value? ↔
        value? = if v.allows value then value else none := by
      intro value?
      constructor
      · rintro ⟨value', himage', h⟩
        cases himage.symm.trans himage'
        exact h
      · exact fun h => ⟨value, himage, h⟩
    rw [hreads]
    by_cases hallows : v.allows value = true
    · rw [if_pos hallows, if_pos hallows]
      exact iff_of_true rfl fun h => absurd hallows (Bool.eq_false_iff.mp h)
    · rw [if_neg hallows, if_neg hallows]
      exact ⟨fun h _ => h, fun h => h (Bool.eq_false_iff.mpr hallows)⟩

end EnvVar

namespace Attributes

/-- Loading a container keeps the value of a variable. -/
theorem settle_value_iff (attributes : Attributes ν) (h : Heap ν) (ref : Nat) :
    ((attributes.settle text h).envVars ref).value = (h.envVars ref).value ↔
      attributes.Keeps text h ref := by
  unfold settle Keeps
  cases attributes.environ with
  | error e => exact iff_of_true rfl trivial
  | ok environ =>
    show (if _ then _ else _ : EnvVar ν).value = _ ↔ (_ → _)
    by_cases hloaded : ref ∈ h.loaded text environ attributes.refs
    · rw [if_pos hloaded, EnvVar.settled_value_iff]
      exact ⟨fun h _ => h, fun h => h hloaded⟩
    · rw [if_neg hloaded]
      exact iff_of_true rfl fun h => absurd h hloaded

omit [BEq ν] in
/-- A container is unassisted if it has no contextual loader. -/
theorem unassisted_iff {attributes : Attributes ν} :
    attributes.unassisted = true ↔ attributes.contextualLoader = .ok none := by
  unfold unassisted
  split
  · rename_i h
    exact iff_of_true rfl h
  · rename_i h
    exact iff_of_false Bool.false_ne_true h

omit [BEq ν] in
/-- The environment of a container is the one it was given last. -/
theorem environ_withEnvironment (attributes : Attributes ν) (environ : Dict String String) :
    (attributes.withEnvironment environ).environ = .ok environ := by
  rw [Attributes.environ, withEnvironment, Dict.get_set_self]

omit [BEq ν] in
theorem Allocated.withEnvironment {attributes : Attributes ν} {h : Heap ν}
    (hall : attributes.Allocated h) (environ : Dict String String) :
    (attributes.withEnvironment environ).Allocated h :=
  hall.set _ nofun

end Attributes

omit [BEq ν] in
/-- All variables are loaded if each can be read. -/
theorem Heap.loaded_eq_self_iff {h : Heap ν} {environ : Dict String String} {refs : List Nat} :
    h.loaded text environ refs = refs ↔
      ∀ ref ∈ refs, ((h.envVars ref).image text environ).isOk = true :=
  List.takeWhile_eq_self_iff

namespace ContainerCall

variable (text) in
/-- The container and the variables, once the loop over the variables is done. -/
def settled (call : ContainerCall ν) (attributes : Attributes ν) (h : Heap ν) :
    Attributes ν × Heap ν :=
  match call.loading attributes with
  | some loading => (loading, loading.settle text h)
  | none => (attributes, h)

/-- **One call** loads the variables and extends the container. -/
theorem effect_extends (call : ContainerCall ν) (attributes : Attributes ν) {h : Heap ν}
    (hargument : call.argumentExists h) :
    Effect.Post (call.effect text) (attributes, h) fun _ =>
      Extends (call.settled text attributes h) := by
  have hload : ∀ loading : Attributes ν, Effect.Post (loadAll text) (loading, h) fun _ =>
      Extends (loading, loading.settle text h) :=
    fun loading => (loadAll_spec loading h).mono fun _ _ hp => hp.1
  cases call with
  | withLoadAll environ loader => exact hload attributes
  | reload environ? =>
    cases environ? with
    | none => exact hload attributes
    | some environ => exact Effect.post_modify_bind (hload (attributes.withEnvironment environ))
  | add name value override =>
    refine add_extends name override (attributes, h) ?_
    rintro ref rfl
    exact hargument
  | addFromEnv args => exact addFromEnv_extends args (attributes, h)

/-- The variables stay allocated while they are loaded. -/
theorem allocated_settled {call : ContainerCall ν} {attributes : Attributes ν} {h : Heap ν}
    (hall : attributes.Allocated h) :
    (call.settled text attributes h).1.Allocated (call.settled text attributes h).2 := by
  have hsettle : ∀ {loading : Attributes ν}, loading.Allocated h →
      loading.Allocated (loading.settle text h) :=
    fun hloading => hloading.mono (Attributes.settle_next _ h).ge
  cases call with
  | withLoadAll environ loader => exact hsettle hall
  | reload environ? =>
    cases environ? with
    | none => exact hsettle hall
    | some environ => exact hsettle (hall.withEnvironment environ)
  | add name value override => exact hall
  | addFromEnv args => exact hall

/-- A call makes no new variable before it extends the container. -/
theorem settled_next (call : ContainerCall ν) (attributes : Attributes ν) (h : Heap ν) :
    (call.settled text attributes h).2.next = h.next := by
  unfold settled
  cases call.loading attributes with
  | none => rfl
  | some loading => exact Attributes.settle_next loading h

/-- A call keeps the value of a variable unless it loads it. -/
theorem settled_value_iff (call : ContainerCall ν) (attributes : Attributes ν) (h : Heap ν)
    (ref : Nat) :
    ((call.settled text attributes h).2.envVars ref).value = (h.envVars ref).value ↔
      ∀ loading, call.loading attributes = some loading → loading.Keeps text h ref := by
  unfold settled
  cases hloading : call.loading attributes with
  | none => exact iff_of_true rfl nofun
  | some loading =>
    rw [Attributes.settle_value_iff]
    exact ⟨fun h loading' h' => Option.some.inj h' ▸ h, fun h => h loading rfl⟩

end ContainerCall

/-- **Loading without a loader**: if it returns, every variable reads the environment, unless a
value that is not allowed leaves an old one. -/
theorem loadAll_reads_iff {loading : Attributes ν} {h : Heap ν} {environ : Dict String String}
    (henviron : loading.environ = .ok environ) (hnone : loading.contextualLoader = .ok none) :
    Effect.Post (loadAll text) (loading, h) fun out p =>
      ((out = .ok ⟨⟩ → ∀ ref ∈ loading.refs,
          (h.envVars ref).Reads text environ (p.2.envVars ref).value) ↔
        ((∀ ref ∈ loading.refs, ((h.envVars ref).image text environ).isOk = true) →
          ∀ ref ∈ loading.refs, (h.envVars ref).Vacant text environ)) := by
  refine (loadAll_spec loading h).mono ?_
  rintro out p ⟨-, hspec⟩
  obtain ⟨rfl, hout⟩ := hspec hnone
  obtain ⟨-, -, -, hloadEach⟩ := loadEach_spec loading.refs henviron h
  rw [hout, hloadEach, Heap.loaded_eq_self_iff]
  refine forall_congr' fun hok => forall₂_congr fun ref href => ?_
  have hloaded : ref ∈ h.loaded text environ loading.refs := by
    rw [Heap.loaded_eq_self_iff.mpr hok]
    exact href
  have hsettled : (loading.settle text h).envVars ref = (h.envVars ref).settled text environ := by
    rw [Attributes.settle, henviron]
    exact if_pos hloaded
  rw [hsettled]
  exact EnvVar.reads_settled_iff (hok ref href)

/-- **A reload** reads every variable from the environment given. -/
theorem reload_reads_iff {attributes : Attributes ν} {h : Heap ν} {environ : Dict String String}
    (hnone : (attributes.withEnvironment environ).unassisted = true) :
    Effect.Post (reload text (some environ)) (attributes, h) fun out p =>
      ((out = .ok ⟨⟩ → ∀ ref ∈ (attributes.withEnvironment environ).refs,
          (h.envVars ref).Reads text environ (p.2.envVars ref).value) ↔
        (ContainerCall.reload (some environ)).LeavesNone text attributes h) := by
  refine Effect.post_modify_bind ?_
  refine (loadAll_reads_iff (attributes.environ_withEnvironment environ)
    (Attributes.unassisted_iff.mp hnone)).mono fun out p hiff => ?_
  exact hiff.trans ⟨fun h _ => h, fun h => h hnone⟩

end

/-! ## Runs -/

section

variable {text : String → ν} [BEq ν] [DecidableEq ι] {declared : List (String × EnvVar ν)}
  {m t : Memory ι ν} {e : ι × ContainerCall ν}

/-- The variables of the containers, and the declared ones, are there. -/
structure Memory.Allocated (declared : List (String × EnvVar ν)) (m : Memory ι ν) : Prop where
  containers : ∀ c attributes, m.containers c = some attributes → attributes.Allocated m.heap
  declared : declared.length ≤ m.heap.next

omit [BEq ν] [DecidableEq ι] in
/-- The variables declared are allocated at the start. -/
theorem allocated_start : (Memory.start declared : Memory ι ν).Allocated declared where
  containers := nofun
  declared := Nat.le_refl _

omit [BEq ν] in
/-- A new container refers to the declared variables. -/
theorem mem_refs_initialAttributes {environ : Dict String String}
    {loader : Option (ContextualLoader ν)} {ref : Nat}
    (href : ref ∈ (initialAttributes declared environ loader).refs) : ref < declared.length := by
  obtain ⟨name, hmem⟩ := Attributes.mem_refs.mp href
  rcases List.mem_append.mp hmem with hmem | hmem
  · obtain ⟨p, hp, heq⟩ := List.mem_map.mp hmem
    cases heq
    exact List.snd_lt_of_mem_zipIdx hp
  · cases loader with
    | none => simp at hmem
    | some f => simp at hmem

/-- What a call has done when it is over. -/
theorem step_spec (hstep : m.step declared text e = some t) :
    ∃ attributes p, e.2.attributes declared m e.1 = some attributes ∧
      e.2.argumentExists m.heap ∧ p = (e.2.effect text (attributes, m.heap)).2 ∧
      Extends (e.2.settled text attributes m.heap) p ∧ t.heap = p.2 ∧
      (t.containers = m.containers ∨
        t.containers = Function.update m.containers e.1 (some p.1)) := by
  unfold Memory.step at hstep
  cases hattributes : e.2.attributes declared m e.1 with
  | none =>
    rw [hattributes] at hstep
    cases hstep
  | some attributes =>
    rw [hattributes] at hstep
    by_cases hargument : e.2.argumentExists m.heap
    · simp only [if_pos hargument] at hstep
      cases hstep
      refine ⟨attributes, _, rfl, hargument, rfl, e.2.effect_extends attributes hargument, rfl, ?_⟩
      dsimp only
      split
      · exact .inr rfl
      · exact .inl rfl
    · simp only [if_neg hargument] at hstep
      cases hstep

/-- **One call** keeps the variables allocated. -/
theorem allocated_step (hinv : m.Allocated declared) (hstep : m.step declared text e = some t) :
    t.Allocated declared := by
  obtain ⟨attributes, p, hattributes, -, -, hextends, hheap, hcontainers⟩ := step_spec hstep
  have hnext : m.heap.next ≤ t.heap.next := by
    have hsettled : (e.2.settled text attributes m.heap).2.next = m.heap.next :=
      e.2.settled_next attributes m.heap
    rw [hheap, ← hsettled]
    exact hextends.grows.next
  have hattributes : attributes.Allocated m.heap := by
    obtain ⟨c, call⟩ := e
    cases call with
    | withLoadAll environ loader =>
      cases hattributes
      exact fun ref href => (mem_refs_initialAttributes href).trans_le hinv.declared
    | reload | add | addFromEnv => exact hinv.containers c attributes hattributes
  have hp : p.1.Allocated t.heap := by
    rw [hheap]
    exact hextends.allocated (ContainerCall.allocated_settled hattributes)
  refine ⟨fun c other hother => ?_, hinv.declared.trans hnext⟩
  -- the other containers are those before the call
  rcases hcontainers with hsame | hupdate
  · rw [hsame] at hother
    exact (hinv.containers c other hother).mono hnext
  · rw [hupdate] at hother
    by_cases hc : c = e.1
    · rw [hc, Function.update_self] at hother
      cases hother
      exact hp
    · rw [Function.update_of_ne hc] at hother
      exact (hinv.containers c other hother).mono hnext

/-- The variables of the other containers are kept exactly where the call is harmless to them. -/
theorem isolated_iff (hinv : m.Allocated declared) {attributes : Attributes ν}
    {p : Attributes ν × Heap ν} (hextends : Extends (e.2.settled text attributes m.heap) p)
    (hheap : t.heap = p.2)
    (hcontainers : t.containers = m.containers ∨
      t.containers = Function.update m.containers e.1 (some p.1)) :
    SameElsewhere e.1 m t ↔ ∀ loading, e.2.loading attributes = some loading →
      ∀ c ≠ e.1, ∀ other, m.containers c = some other →
        ∀ ref ∈ other.refs, loading.Keeps text m.heap ref := by
  have hvalue : ∀ ref < m.heap.next,
      ((t.heap.envVars ref).value = (m.heap.envVars ref).value ↔
        ∀ loading, e.2.loading attributes = some loading → loading.Keeps text m.heap ref) := by
    intro ref href
    have hnext : (e.2.settled text attributes m.heap).2.next = m.heap.next :=
      e.2.settled_next attributes m.heap
    rw [hheap, hextends.grows.envVars ref (href.trans_eq hnext.symm)]
    exact e.2.settled_value_iff attributes m.heap ref
  have hsame : ∀ c ≠ e.1, t.containers c = m.containers c := by
    intro c hc
    rcases hcontainers with hsame | hupdate
    · rw [hsame]
    · rw [hupdate, Function.update_of_ne hc]
  constructor
  · intro h loading hloading c hc other hother ref href
    have hlt := hinv.containers c other hother ref href
    exact (hvalue ref hlt).mp ((h c hc).2 other hother ref href) loading hloading
  · intro h c hc
    refine ⟨hsame c hc, fun other hother ref href => ?_⟩
    have hlt := hinv.containers c other hother ref href
    exact (hvalue ref hlt).mpr fun loading hloading => h loading hloading c hc other hother ref href

/-- A call is lawful exactly where it is harmless. -/
theorem lawful_iff_harmless (hinv : m.Allocated declared)
    (hstep : m.step declared text e = some t) :
    Lawful text m e t ↔ Harmless text declared m e := by
  obtain ⟨attributes, p, hattributes, -, hp, hextends, hheap, hcontainers⟩ := step_spec hstep
  have hisolated := isolated_iff hinv hextends hheap hcontainers
  have hreloaded : (∀ environ attributes', e.2 = .reload (some environ) →
      m.containers e.1 = some attributes' →
      (attributes'.withEnvironment environ).unassisted = true →
      (reload text (some environ) (attributes', m.heap)).1 = .ok ⟨⟩ →
      ∀ ref ∈ (attributes'.withEnvironment environ).refs,
        (m.heap.envVars ref).Reads text environ (t.heap.envVars ref).value) ↔
      e.2.LeavesNone text attributes m.heap := by
    obtain ⟨c, call⟩ := e
    cases call with
    -- only a reload with an environment promises to read it
    | withLoadAll | add | addFromEnv => exact iff_of_true nofun trivial
    | reload environ? =>
      cases environ? with
      | none => exact iff_of_true nofun trivial
      | some environ =>
        subst hp
        rw [hheap]
        constructor
        · intro h hnone
          -- without a loader, the variables read are those that the container refers to
          exact (reload_reads_iff hnone).mp (h environ attributes rfl hattributes hnone) hnone
        · rintro h environ' attributes' ⟨⟩ hattributes' hnone
          cases hattributes.symm.trans hattributes'
          exact (reload_reads_iff hnone).mpr h
  constructor
  · rintro ⟨hlawful, hreads⟩ attributes' hattributes'
    cases hattributes.symm.trans hattributes'
    exact ⟨hisolated.mp hlawful, hreloaded.mp hreads⟩
  · intro h
    obtain ⟨hloads, hleaves⟩ := h attributes hattributes
    exact ⟨hisolated.mpr hloads, hreloaded.mpr hleaves⟩

omit [BEq ν] [DecidableEq ι] in
theorem SameElsewhere.refl (c : ι) (m : Memory ι ν) : SameElsewhere c m m :=
  fun _ _ => ⟨rfl, fun _ _ _ _ => rfl⟩

omit [BEq ν] [DecidableEq ι] in
theorem SameElsewhere.trans {c : ι} {r : Memory ι ν} (h : SameElsewhere c m r)
    (h' : SameElsewhere c r t) : SameElsewhere c m t := by
  intro c' hc
  obtain ⟨hsame, hvalues⟩ := h c' hc
  obtain ⟨hsame', hvalues'⟩ := h' c' hc
  refine ⟨hsame'.trans hsame, fun attributes hattributes ref href => ?_⟩
  rw [hvalues' attributes (hsame.trans hattributes) ref href,
    hvalues attributes hattributes ref href]

/-- **Isolation and reload** hold in every run of any calls whose steps are harmless, and
only there: each call is lawful, and so a sequence of calls on one container changes no value of
another. -/
theorem isolated_and_reloaded {before calls : List (ι × ContainerCall ν)}
    (hbefore : run (Memory.step declared text) (Memory.start declared) before = some m)
    (hcalls : run (Memory.step declared text) m calls = some t) :
    (Guarded (Memory.step declared text)
        (fun m e => ∀ t, m.step declared text e = some t → Lawful text m e t) m calls ↔
      Guarded (Memory.step declared text) (Harmless text declared) m calls) ∧
    (Guarded (Memory.step declared text) (Harmless text declared) m calls →
      ∀ c, (∀ e ∈ calls, e.1 = c) → SameElsewhere c m t) := by
  have hinv : m.Allocated declared := run_invariant' allocated_step allocated_start hbefore
  refine ⟨guarded_congr allocated_step (fun hinv hstep => ?_) hinv hcalls, fun hok c hc => ?_⟩
  · rw [← lawful_iff_harmless hinv hstep]
    exact ⟨fun h => h _ hstep, fun h t' hstep' => Option.some.inj (hstep.symm.trans hstep') ▸ h⟩
  · have hstep : ∀ {s e r}, SameElsewhere c m s ∧ s.Allocated declared →
        Harmless text declared s e ∧ e.1 = c → s.step declared text e = some r →
        SameElsewhere c m r ∧ r.Allocated declared := by
      rintro s e r ⟨hsame, hs⟩ ⟨hharmless, rfl⟩ hr
      have hlawful := (lawful_iff_harmless hs hr).mpr hharmless
      exact ⟨hsame.trans hlawful.isolated, allocated_step hs hr⟩
    exact (run_invariant hstep ⟨.refl c m, hinv⟩ (hok.and_forall hc) hcalls).1

end

/-! ## The variables of the service -/

/-- What the factories of the declared variables return. -/
inductive ConfValue where
  | text (s : String)
  | flag (b : Bool)
  | number (i : Int)
  deriving DecidableEq

section

variable (lower : String → String)

/-- `lambda x: x.lower()`. -/
def lowerFactory (x : String) : Except Raised (Option ConfValue) := .ok (some (.text (lower x)))

/-- `lambda x: x.lower() == "true" or x == "1"`; with `enabled`, also
`x.lower() == "enabled"`. -/
def flagFactory (enabled : Bool) (x : String) : Except Raised (Option ConfValue) :=
  .ok (some (.flag (lower x == "true" || (enabled && lower x == "enabled") || x == "1")))

/-- `int`, as a factory. -/
def intFactory (x : String) : Except Raised (Option ConfValue) :=
  match decimalInt x.toList with
  | some i => .ok (some (.number i))
  | none => .error (.valueError ("invalid literal for int() with base 10: '" ++ x ++ "'"))

/-- The values allowed. -/
def allowedTexts (values : List String) : Option (List (Option ConfValue)) :=
  some (values.map fun s => some (.text s))

/-- The class attributes of `ConfigurationContainer`. -/
def declaredVariables : List (String × EnvVar ConfValue) :=
  [("service_name", { key := "SERVICE_NAME", default := some "os-wellbore-ddms---local" }),
    ("environment_name", { key := "ENVIRONMENT_NAME", default := some "undefined" }),
    ("cloud_provider",
      { key := "CLOUD_PROVIDER",
        allowedValues := allowedTexts ["aws", "gc", "az", "local", "ibm", "baremetal"],
        factory := some (lowerFactory lower) }),
    ("service_host_search", { key := "SERVICE_HOST_SEARCH" }),
    ("service_host_schema", { key := "SERVICE_HOST_SCHEMA" }),
    ("service_host_storage", { key := "SERVICE_HOST_STORAGE" }),
    ("service_host_wdms_worker", { key := "SERVICE_HOST_WDMS_WORKER", default := some "" }),
    ("wdms_worker_write_disable",
      { key := "WDMS_WORKER_WRITE_DISABLE", default := some "false",
        factory := some (flagFactory lower true) }),
    ("de_client_config_timeout",
      { key := "DE_CLIENT_CFG_TIMEOUT", default := some "10", factory := some intFactory }),
    ("de_client_config_max_connection",
      { key := "DE_CLIENT_CFG_MAX_CONNECTION", default := some "1000",
        factory := some intFactory }),
    ("de_client_config_max_keepalive",
      { key := "DE_CLIENT_CFG_MAX_KEEPALIVE", default := some "500", factory := some intFactory }),
    ("de_client_backoff_max_tries",
      { key := "DE_CLIENT_BACKOFF_MAX_RETRIES", default := some "4", factory := some intFactory }),
    ("de_client_backoff_max_wait",
      { key := "DE_CLIENT_BACKOFF_MAX_WAIT", default := some "5", factory := some intFactory }),
    ("build_details", { key := "OS_WELLBORE_DDMS_BUILD_DETAILS", default := some "" }),
    ("dev_mode",
      { key := "OS_WELLBORE_DDMS_DEV_MODE", default := some "false",
        factory := some (flagFactory lower false) }),
    ("openapi_prefix", { key := "OPENAPI_PREFIX", default := some "/api/os-wellbore-ddms" }),
    ("custom_catalog_timeout",
      { key := "CUSTOM_CATALOG_TIMEOUT", default := some "300", factory := some intFactory }),
    ("modules", { key := "MODULES", default := some "" }),
    ("min_worker_memory", { key := "MIN_WORKER_MEMORY", default := some "512Mi" }),
    ("enable_read_fast_track",
      { key := "READ_FAST_TRACK_ENABLE", default := some "false",
        factory := some (flagFactory lower true) }),
    ("max_return_read_fast_track",
      { key := "READ_FAST_TRACK_MAX_VALUE", default := some "10", factory := some intFactory }),
    ("max_working_read_fast_track",
      { key := "READ_FAST_TRACK_MAX_WORKING_VALUE", default := some "100",
        factory := some intFactory }),
    ("dask_data_ipc",
      { key := "DASK_DATA_IPC", default := some "dask_native",
        allowedValues := allowedTexts ["dask_native", "local_file"],
        factory := some (lowerFactory lower) }),
    ("enable_header_server_timings",
      { key := "OS_WELLBORE_DDMS_SERVER_TIMINGS_HDR", default := some "true",
        factory := some (flagFactory lower true) }),
    ("swagger_full_url_enabled",
      { key := "SWAGGER_FULL_URL_ENABLED", default := some "false",
        factory := some (flagFactory lower true) })]

end

/-- **The defaults are allowed**: without an environment, a variable with a default takes its
value from it. -/
theorem declared_defaults_allowed {lower : String → String}
    (hlower : lower "dask_native" = "dask_native") :
    ∀ p ∈ declaredVariables lower, p.2.default.isSome = true →
      ∃ value, p.2.image .text [] = .ok value ∧ p.2.allows value = true := by
  have hdask : (lowerFactory lower "dask_native" : Except Raised (Option ConfValue)) =
      .ok (some (.text "dask_native")) := by
    rw [lowerFactory, hlower]
  intro p hp hdefault
  fin_cases hp
  all_goals first
    | exact ⟨_, rfl, rfl⟩
    | exact ⟨_, hdask, rfl⟩
    | cases hdefault

/-! ## Two containers -/

/-- The steps of the sample. -/
abbrev confStep : Memory (Fin 2) ConfValue → Fin 2 × ContainerCall ConfValue →
    Option (Memory (Fin 2) ConfValue) :=
  Memory.step (declaredVariables lower) .text

/-- The start of the sample. -/
abbrev confStart : Memory (Fin 2) ConfValue := Memory.start (declaredVariables lower)

/-- The first container has the provider `az`. -/
def firstContainer : Memory (Fin 2) ConfValue :=
  (run confStep confStart
    [(⟨0, Nat.zero_lt_two⟩, .withLoadAll [("CLOUD_PROVIDER", "az")] none)]).get
    (by decide +kernel)

/-- Calls on a second container, which agrees with the first one. -/
def callsOnSecond : List (Fin 2 × ContainerCall ConfValue) :=
  let second : Fin 2 := ⟨1, Nat.one_lt_two⟩
  [(second, .withLoadAll [("CLOUD_PROVIDER", "AZ")] none),
    (second, .addFromEnv { envVarKey := "LOG_LEVEL", default := some "INFO" }),
    (second, .reload (some [("CLOUD_PROVIDER", "az"), ("LOG_LEVEL", "DEBUG")]))]

/-- The memory after the calls on the second container. -/
def secondContainer : Memory (Fin 2) ConfValue :=
  (run confStep firstContainer callsOnSecond).get (by decide +kernel)

/-- The calls on the second container leave the first one. -/
theorem second_isolated : SameElsewhere 1 firstContainer secondContainer := by
  have hbefore : run confStep confStart [(0, .withLoadAll [("CLOUD_PROVIDER", "az")] none)] =
      some firstContainer := (Option.some_get _).symm
  have hcalls : run confStep firstContainer callsOnSecond = some secondContainer :=
    (Option.some_get _).symm
  have hok : Guarded confStep (Harmless .text (declaredVariables lower)) firstContainer
      callsOnSecond := guarded_of_checkRun (by decide +kernel)
  exact (isolated_and_reloaded hbefore hcalls).2 hok 1 (by decide)

/-- **The containers are corrupted**: a second container with another provider changes the first
one, and an environment with an unknown provider leaves the old one. -/
theorem containers_corrupted :
    (∃ t, confStep firstContainer (1, .withLoadAll [("CLOUD_PROVIDER", "gc")] none) = some t ∧
      ¬ Lawful .text firstContainer (1, .withLoadAll [("CLOUD_PROVIDER", "gc")] none) t) ∧
    ∃ t, confStep firstContainer (0, .reload (some [("CLOUD_PROVIDER", "other")])) = some t ∧
      ¬ Lawful .text firstContainer (0, .reload (some [("CLOUD_PROVIDER", "other")])) t := by
  have hbefore : run confStep confStart [(0, .withLoadAll [("CLOUD_PROVIDER", "az")] none)] =
      some firstContainer := (Option.some_get _).symm
  have hinv : firstContainer.Allocated (declaredVariables lower) :=
    run_invariant' allocated_step allocated_start hbefore
  have hfalse : ∀ e, (confStep firstContainer e).isSome = true →
      ¬ Harmless .text (declaredVariables lower) firstContainer e →
      ∃ t, confStep firstContainer e = some t ∧ ¬ Lawful .text firstContainer e t := by
    intro e hsome hharm
    obtain ⟨t, ht⟩ := Option.isSome_iff_exists.mp hsome
    exact ⟨t, ht, fun h => hharm ((lawful_iff_harmless hinv ht).mp h)⟩
  exact ⟨hfalse _ (by decide +kernel) (by decide +kernel),
    hfalse _ (by decide +kernel) (by decide +kernel)⟩

end WellboreDdms
