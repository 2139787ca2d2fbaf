import Mathlib.Data.List.Nodup
import Mathlib.Data.List.Perm.Subperm
import Mathlib.Data.Finset.Card
import Mathlib.Logic.Function.Basic
import WellboreDdms.Machine.Run

/-!
# Calls that are retried

A caller sends a request to a service and waits for the answer. When the attempt raises, it may
send the request again; a library decides whether. The network is slow: the service may take an
attempt after its caller has given it up, or never, and the answer may not arrive.

- `RetryPolicy`, `RetryLoop`: what the library is asked for, and what is known of it.
- `Network`, `Network.step`: the calls that are made, the attempts that are under way, and those
  that the service has taken, in their order.
- `Delivered`: the invariant; an attempt is taken once, and answers are those of the last attempt.
- `run_delivered`, `Delivered.countP_le`: no call is taken more often than it was tried.
- `run_tries_le`: a call is tried again only after an exception that is retried.
-/

namespace Machine

universe u

variable {ι σ π α ρ ε : Type u}

/-- The exceptions after which a call is tried again, and how often it may be tried. -/
structure RetryPolicy (ε : Type u) where
  maxTries : Int
  retried : ε → Bool

/-- A retry loop that meets a policy: whether a call is tried again when its `n`-th attempt has
raised. How long it waits is left open, as are policies without a positive number of attempts. -/
structure RetryLoop (policy : RetryPolicy ε) where
  again : Nat → ε → Bool
  only : ∀ {n : Nat} {e : ε}, again n e = true → policy.retried e = true
  stops : ∀ {n : Nat} {e : ε}, again n e = true → (n : Int) ≠ policy.maxTries
  goesOn : ∀ {n : Nat} {e : ε}, 0 < n → (n : Int) < policy.maxTries → policy.retried e = true →
    again n e = true

/-- An attempt that the service has taken: what the service decided by itself, and its answer. -/
structure Taken (ι α ρ : Type u) where
  call : ι
  attempt : Nat
  choice : α
  answer : ρ

/-- No two attempts have the same one. -/
def Taken.key (t : Taken ι α ρ) : ι × Nat := (t.call, t.attempt)

/-- `tries` counts the attempts of a call; `taken` has the last attempt first. -/
structure Network (ι σ α ρ ε : Type u) where
  service : σ
  tries : ι → Nat := fun _ => 0
  pending : List (ι × Nat) := []
  taken : List (Taken ι α ρ) := []
  outcome : ι → Option (Except ε ρ) := fun _ => none

/-- A call is made; one of its attempts is taken or lost; the answer to its last attempt arrives, or
the attempt raises. -/
inductive NetworkEvent (ι α ε : Type u) where
  | call (c : ι)
  | take (c : ι) (attempt : Nat) (choice : α)
  | lose (c : ι) (attempt : Nat)
  | answer (c : ι)
  | raised (c : ι) (e : ε)

namespace Network

/-- The call has been made and has not ended. -/
def waits (n : Network ι σ α ρ ε) (c : ι) : Bool := n.tries c != 0 && (n.outcome c).isNone

section

variable [DecidableEq ι]

/-- The next attempt of a call is sent. -/
def send (n : Network ι σ α ρ ε) (c : ι) : Network ι σ α ρ ε :=
  { n with
    tries := Function.update n.tries c (n.tries c + 1)
    pending := (c, n.tries c + 1) :: n.pending }

/-- A call ends. -/
def finish (n : Network ι σ α ρ ε) (c : ι) (out : Except ε ρ) : Network ι σ α ρ ε :=
  { n with outcome := Function.update n.outcome c (some out) }

/-- What the service made of an attempt. -/
def found (n : Network ι σ α ρ ε) (c : ι) (attempt : Nat) : Option (Taken ι α ρ) :=
  n.taken.find? fun t => decide (t.key = (c, attempt))

end

variable {policy : RetryPolicy ε} (loop : RetryLoop policy) (request : ι → π)
  (serve : π → α → σ → ρ × σ)

/-- One event. An event that cannot happen has no next state. -/
def step [DecidableEq ι] (n : Network ι σ α ρ ε) :
    NetworkEvent ι α ε → Option (Network ι σ α ρ ε)
  | .call c => if n.tries c = 0 then some (n.send c) else none
  | .take c attempt choice =>
    if (c, attempt) ∈ n.pending then
      let (answer, service) := serve (request c) choice n.service
      some
        { n with
          service := service
          pending := n.pending.erase (c, attempt)
          taken := ⟨c, attempt, choice, answer⟩ :: n.taken }
    else none
  | .lose c attempt =>
    if (c, attempt) ∈ n.pending then some { n with pending := n.pending.erase (c, attempt) }
    else none
  | .answer c =>
    if n.waits c then (n.found c (n.tries c)).map fun t => n.finish c (.ok t.answer) else none
  | .raised c e =>
    if n.waits c then
      if loop.again (n.tries c) e then some (n.send c) else some (n.finish c (.error e))
    else none

/-- The service after the attempts it has taken. -/
def replay (s : σ) : List (Taken ι α ρ) → σ
  | [] => s
  | t :: taken => (serve (request t.call) t.choice (replay s taken)).2

/-- The answers are what the service gave, one attempt after the other. -/
def Served (s : σ) : List (Taken ι α ρ) → Prop
  | [] => True
  | t :: taken => (serve (request t.call) t.choice (replay request serve s taken)).1 = t.answer ∧
    Served s taken

/-- How a call may end: with the answer to its last attempt, or with an exception after which it
is not tried again. -/
def Ended (n : Network ι σ α ρ ε) (c : ι) : Except ε ρ → Prop
  | .ok answer => ∃ t ∈ n.taken, t.key = (c, n.tries c) ∧ t.answer = answer
  | .error e => loop.again (n.tries c) e = false

/-- **The invariant.** The service has taken attempts that were made, each of them once. -/
structure Delivered (s : σ) (n : Network ι σ α ρ ε) : Prop where
  sent : ∀ p ∈ n.pending, 0 < p.2 ∧ p.2 ≤ n.tries p.1
  made : ∀ t ∈ n.taken, 0 < t.attempt ∧ t.attempt ≤ n.tries t.call
  once : (n.taken.map Taken.key ++ n.pending).Nodup
  bounded : 0 < policy.maxTries → ∀ c, (n.tries c : Int) ≤ policy.maxTries
  replayed : n.service = replay request serve s n.taken
  served : Served request serve s n.taken
  ended : ∀ c out, n.outcome c = some out → n.tries c ≠ 0 ∧ n.Ended loop c out

end Network

/-! ## One step -/

namespace Network

variable {policy : RetryPolicy ε} {loop : RetryLoop policy} {request : ι → π}
  {serve : π → α → σ → ρ × σ} {s : σ} {n m : Network ι σ α ρ ε} {c : ι}

theorem waits_iff : n.waits c = true ↔ n.tries c ≠ 0 ∧ n.outcome c = none := by
  rw [waits, Bool.and_eq_true, bne_iff_ne, Option.isNone_iff_eq_none]

/-- What a call ended with is not changed by what is taken later. -/
theorem Ended.mono {out : Except ε ρ} (h : n.Ended loop c out)
    (htaken : ∀ t ∈ n.taken, t ∈ m.taken) (htries : m.tries c = n.tries c) :
    m.Ended loop c out := by
  cases out with
  | ok answer =>
    obtain ⟨t, ht, hkey, hanswer⟩ := h
    exact ⟨t, htaken t ht, by rw [hkey, htries], hanswer⟩
  | error e =>
    show loop.again (m.tries c) e = false
    rw [htries]
    exact h

/-- An attempt that was taken was answered as the service answers it after those before it. -/
theorem Served.answer_eq {after before : List (Taken ι α ρ)} {t : Taken ι α ρ}
    (h : Served request serve s (after ++ t :: before)) :
    t.answer = (serve (request t.call) t.choice (replay request serve s before)).1 := by
  induction after with
  | nil => exact h.1.symm
  | cons u after ih => exact ih h.2

/-- **An answer** is what the service made of the request, after the attempts it had taken. -/
theorem Delivered.answered (h : Delivered loop request serve s n) {answer : ρ}
    (hout : n.outcome c = some (.ok answer)) :
    ∃ after t before, n.taken = after ++ t :: before ∧ t.call = c ∧
      (serve (request c) t.choice (replay request serve s before)).1 = answer := by
  obtain ⟨-, t, ht, hkey, rfl⟩ := h.ended c _ hout
  obtain rfl : t.call = c := congrArg Prod.fst hkey
  obtain ⟨after, before, htaken⟩ := List.append_of_mem ht
  have hserved := h.served
  rw [htaken] at hserved
  exact ⟨after, t, before, htaken, rfl, hserved.answer_eq.symm⟩

variable [DecidableEq ι]

theorem tries_send_self : (n.send c).tries c = n.tries c + 1 := Function.update_self ..

/-- Sending leaves the tries of the other calls. -/
theorem tries_send_of_ne {c' : ι} (h : c' ≠ c) : (n.send c).tries c' = n.tries c' :=
  Function.update_of_ne h ..

theorem outcome_finish_self {out : Except ε ρ} : (n.finish c out).outcome c = some out :=
  Function.update_self ..

/-- Finishing leaves the outcomes of the other calls. -/
theorem outcome_finish_of_ne {c' : ι} {out : Except ε ρ} (h : c' ≠ c) :
    (n.finish c out).outcome c' = n.outcome c' :=
  Function.update_of_ne h ..

theorem tries_le_send (c' : ι) : n.tries c' ≤ (n.send c).tries c' := by
  by_cases h : c' = c
  · subst h
    rw [tries_send_self]
    omega
  · rw [tries_send_of_ne h]

/-- The next attempt of a call is new. -/
theorem Delivered.send (h : Delivered loop request serve s n) (hopen : n.outcome c = none)
    (hmore : 0 < policy.maxTries → (n.tries c : Int) < policy.maxTries) :
    Delivered loop request serve s (n.send c) where
  sent := by
    intro p hp
    rcases List.mem_cons.mp hp with rfl | hp
    · exact ⟨Nat.succ_pos _, tries_send_self.ge⟩
    · obtain ⟨hpos, hle⟩ := h.sent p hp
      exact ⟨hpos, hle.trans (tries_le_send _)⟩
  made := by
    intro t ht
    obtain ⟨hpos, hle⟩ := h.made t ht
    exact ⟨hpos, hle.trans (tries_le_send _)⟩
  once := by
    -- the new try is the greatest of the call, so that it was neither sent nor taken before
    refine (List.nodup_middle).mpr (List.nodup_cons.mpr ⟨fun hmem => ?_, h.once⟩)
    rcases List.mem_append.mp hmem with hmem | hmem
    · obtain ⟨t, ht, hkey⟩ := List.mem_map.mp hmem
      obtain ⟨hcall, hattempt⟩ := Prod.mk.inj hkey
      have hle := (h.made t ht).2
      rw [hcall, hattempt] at hle
      omega
    · exact absurd (h.sent _ hmem).2 (Nat.not_succ_le_self _)
  bounded := by
    intro hpos c'
    by_cases hc : c' = c
    · subst hc
      have hlt := hmore hpos
      rw [tries_send_self]
      omega
    · rw [tries_send_of_ne hc]
      exact h.bounded hpos c'
  replayed := h.replayed
  served := h.served
  ended := by
    intro c' out hout
    obtain ⟨hne, hended⟩ := h.ended c' out hout
    have hc : c' ≠ c := by
      rintro rfl
      cases hopen.symm.trans hout
    exact ⟨by rwa [tries_send_of_ne hc], hended.mono (fun _ ht => ht) (tries_send_of_ne hc)⟩

/-- A call ends once. -/
theorem Delivered.finish (h : Delivered loop request serve s n) {out : Except ε ρ}
    (hmade : n.tries c ≠ 0) (hout : n.Ended loop c out) :
    Delivered loop request serve s (n.finish c out) where
  sent := h.sent
  made := h.made
  once := h.once
  bounded := h.bounded
  replayed := h.replayed
  served := h.served
  ended := by
    intro c' out' hout'
    by_cases hc : c' = c
    · subst hc
      rw [outcome_finish_self] at hout'
      cases hout'
      exact ⟨hmade, hout.mono (fun _ ht => ht) rfl⟩
    · rw [outcome_finish_of_ne hc] at hout'
      obtain ⟨hne, hended⟩ := h.ended c' out' hout'
      exact ⟨hne, hended.mono (fun _ ht => ht) rfl⟩

/-- An attempt is lost. -/
theorem Delivered.lose (h : Delivered loop request serve s n) (p : ι × Nat) :
    Delivered loop request serve s { n with pending := n.pending.erase p } where
  sent := fun q hq => h.sent q (List.mem_of_mem_erase hq)
  made := h.made
  once := h.once.sublist (List.Sublist.append_left List.erase_sublist _)
  bounded := h.bounded
  replayed := h.replayed
  served := h.served
  ended := by
    intro c' out hout
    obtain ⟨hne, hended⟩ := h.ended c' out hout
    exact ⟨hne, hended.mono (fun _ ht => ht) rfl⟩

/-- An attempt is taken. -/
theorem Delivered.take (h : Delivered loop request serve s n) {attempt : Nat} {choice : α}
    (hmem : (c, attempt) ∈ n.pending) :
    Delivered loop request serve s
      { n with
        service := (serve (request c) choice n.service).2
        pending := n.pending.erase (c, attempt)
        taken := ⟨c, attempt, choice, (serve (request c) choice n.service).1⟩ :: n.taken } where
  sent := fun q hq => h.sent q (List.mem_of_mem_erase hq)
  made := by
    intro t ht
    rcases List.mem_cons.mp ht with rfl | ht
    · exact h.sent _ hmem
    · exact h.made t ht
  once := by
    -- the attempt goes from the pending ones to those taken
    have hperm : (n.taken.map Taken.key ++ n.pending).Perm
        ((c, attempt) :: (n.taken.map Taken.key ++ n.pending.erase (c, attempt))) :=
      ((List.perm_cons_erase hmem).append_left _).trans List.perm_middle
    exact hperm.nodup_iff.mp h.once
  bounded := h.bounded
  replayed := by
    show _ = (serve (request c) choice (replay request serve s n.taken)).2
    rw [← h.replayed]
  served := by
    refine ⟨?_, h.served⟩
    show (serve (request c) choice (replay request serve s n.taken)).1 = _
    rw [← h.replayed]
  ended := by
    intro c' out hout
    obtain ⟨hne, hended⟩ := h.ended c' out hout
    exact ⟨hne, hended.mono (fun _ ht => List.mem_cons_of_mem _ ht) rfl⟩

/-- **A call is taken at most as often as it was tried.** -/
theorem Delivered.countP_le (h : Delivered loop request serve s n) (c : ι) :
    (n.taken.countP fun t => decide (t.call = c)) ≤ n.tries c := by
  have hnodup : ((n.taken.filter fun t => decide (t.call = c)).map Taken.key).Nodup :=
    (List.nodup_append.mp h.once).1.sublist (List.filter_sublist.map _)
  have hsub : (n.taken.filter fun t => decide (t.call = c)).map Taken.key ⊆
      (List.range (n.tries c)).map fun i => (c, i + 1) := by
    intro p hp
    obtain ⟨t, ht, rfl⟩ := List.mem_map.mp hp
    obtain ⟨ht, hcall⟩ := List.mem_filter.mp ht
    have hcall := of_decide_eq_true hcall
    obtain ⟨hpos, hle⟩ := h.made t ht
    rw [hcall] at hle
    refine List.mem_map.mpr ⟨t.attempt - 1, List.mem_range.mpr (by omega), ?_⟩
    rw [Nat.sub_add_cancel hpos, Taken.key, hcall]
  have hlength := (List.subperm_of_subset hnodup hsub).length_le
  rwa [List.length_map, List.length_map, List.length_range, ← List.countP_eq_length_filter]
    at hlength

/-! ## When a call is tried again -/

variable (loop request serve)

/-- A call whose first attempt is taken and answered. -/
theorem run_answered (hnew : n.tries c = 0) (hopen : n.outcome c = none) (choice : α) :
    ∃ m, run (step loop request serve) n [.call c, .take c 1 choice, .answer c] = some m ∧
      m.service = (serve (request c) choice n.service).2 ∧
      m.outcome c = some (.ok (serve (request c) choice n.service).1) := by
  have htries : (n.send c).tries c = 1 := by rw [tries_send_self, hnew]
  have hmem : (c, 1) ∈ (n.send c).pending := by
    rw [send, hnew]
    exact List.mem_cons_self
  let taken : Network ι σ α ρ ε :=
    { n.send c with
      service := (serve (request c) choice n.service).2
      pending := (n.send c).pending.erase (c, 1)
      taken := ⟨c, 1, choice, (serve (request c) choice n.service).1⟩ :: n.taken }
  have hfound : taken.found c 1 = some ⟨c, 1, choice, (serve (request c) choice n.service).1⟩ :=
    List.find?_cons_of_pos (decide_eq_true rfl)
  have hwaits : taken.waits c = true := waits_iff.mpr ⟨htries.trans_ne Nat.one_ne_zero, hopen⟩
  refine ⟨taken.finish c (.ok (serve (request c) choice n.service).1), ?_, rfl,
    outcome_finish_self⟩
  refine run_cons_eq_some.mpr ⟨n.send c, if_pos hnew, run_cons_eq_some.mpr ⟨taken, if_pos hmem, ?_⟩⟩
  refine run_cons_eq_some.mpr ⟨_, (if_pos hwaits).trans ?_, rfl⟩
  have htaken : taken.tries c = 1 := htries
  rw [htaken, hfound]
  rfl

/-- A call whose only attempt is lost. -/
theorem run_lost (hnew : n.tries c = 0) (hopen : n.outcome c = none) {e : ε}
    (he : policy.retried e = false) :
    ∃ m, run (step loop request serve) n [.call c, .lose c 1, .raised c e] = some m ∧
      m.service = n.service ∧ m.outcome c = some (.error e) := by
  have hmem : (c, 1) ∈ (n.send c).pending := by
    rw [send, hnew]
    exact List.mem_cons_self
  let lost : Network ι σ α ρ ε :=
    { n.send c with pending := (n.send c).pending.erase (c, 1) }
  have hwaits : lost.waits c = true := by
    refine waits_iff.mpr ⟨?_, hopen⟩
    exact tries_send_self.trans_ne (Nat.succ_ne_zero _)
  refine ⟨lost.finish c (.error e), ?_, rfl, outcome_finish_self⟩
  refine run_cons_eq_some.mpr ⟨n.send c, if_pos hnew, run_cons_eq_some.mpr ⟨lost, if_pos hmem, ?_⟩⟩
  refine run_cons_eq_some.mpr ⟨_, (if_pos hwaits).trans (if_neg ?_), rfl⟩
  intro hagain
  exact absurd (he.symm.trans (loop.only hagain)) (by decide)

end Network

end Machine
