import Mathlib.Data.List.Basic
import Mathlib.Logic.Function.Basic
import Mathlib.Tactic.Common

/-!
# Kernel queues of vnode events

A process has descriptors of vnodes.  A descriptor that is armed collects what
is reported on its vnode from then on, until a batch of events is read from the
queue.  Closing a descriptor drops what it has collected.
-/

namespace VnodeQueue

/-- What is reported on a vnode: that it lost a name, or that its contents or
attributes have changed. -/
structure Flags where
  gone : Bool := false
  changed : Bool := false
  deriving DecidableEq, Repr

namespace Flags

def any (flags : Flags) : Bool :=
  flags.gone || flags.changed

def add (flags more : Flags) : Flags where
  gone := flags.gone || more.gone
  changed := flags.changed || more.changed

/-- What was reported stays reported. -/
def Persists (kind : Flags → Bool) : Prop :=
  ∀ flags more, kind flags = true ∨ kind more = true →
    kind (flags.add more) = true

theorem persists_gone : Persists gone := by
  intro flags more either
  simpa [add] using either

theorem persists_any : Persists any := by
  intro flags more either
  simp only [any, Bool.or_eq_true] at either
  simp only [any, add, Bool.or_eq_true]
  tauto

end Flags

/-- The registration of an armed descriptor. -/
structure Knote (Udata : Type*) where
  udata : Udata
  pending : Flags := {}

structure Descriptor (Vnode Udata : Type*) where
  vnode : Vnode
  knote : Option (Knote Udata) := none

/-- The open descriptors. -/
abbrev Table (Vnode Udata : Type*) := Nat → Option (Descriptor Vnode Udata)

structure Event (Udata : Type*) where
  ident : Nat
  udata : Udata
  fflags : Flags

variable {Vnode Udata : Type*}

/-- A new registration has nothing to report yet. -/
def Descriptor.arm (descriptor : Descriptor Vnode Udata) (udata : Udata) :
    Descriptor Vnode Udata :=
  { descriptor with knote := some { udata } }

def Descriptor.disarm (descriptor : Descriptor Vnode Udata) :
    Descriptor Vnode Udata :=
  { descriptor with knote := none }

def Descriptor.pending (descriptor : Descriptor Vnode Udata) : Flags :=
  match descriptor.knote with
  | some knote => knote.pending
  | none => {}

namespace Table

def openFile (table : Table Vnode Udata) (fd : Nat) (vnode : Vnode) :
    Table Vnode Udata :=
  Function.update table fd (some { vnode })

def close (table : Table Vnode Udata) (fd : Nat) : Table Vnode Udata :=
  Function.update table fd none

def arm (table : Table Vnode Udata) (fd : Nat) (udata : Udata) :
    Table Vnode Udata :=
  Function.update table fd ((table fd).map fun descriptor => descriptor.arm udata)

def disarm (table : Table Vnode Udata) (fd : Nat) : Table Vnode Udata :=
  Function.update table fd ((table fd).map Descriptor.disarm)

def report [DecidableEq Vnode] (table : Table Vnode Udata) (vnode : Vnode)
    (flags : Flags) : Table Vnode Udata :=
  fun fd => (table fd).map fun descriptor =>
    if descriptor.vnode = vnode then
      { descriptor with knote := descriptor.knote.map fun knote =>
          { knote with pending := knote.pending.add flags } }
    else
      descriptor

/-- Whether an event can be read for the descriptor. -/
def ready (table : Table Vnode Udata) (fd : Nat) : Bool :=
  match table fd with
  | some descriptor => descriptor.pending.any
  | none => false

/-- The events that are read for these descriptors. -/
def events (table : Table Vnode Udata) (fds : List Nat) : List (Event Udata) :=
  fds.filterMap fun fd =>
    match table fd with
    | some ⟨_, some knote⟩ => some ⟨fd, knote.udata, knote.pending⟩
    | _ => none

/-- Reading an event clears what it reports. -/
def clear (table : Table Vnode Udata) (fds : List Nat) : Table Vnode Udata :=
  fun fd =>
    if fd ∈ fds then
      (table fd).map fun descriptor =>
        { descriptor with knote := descriptor.knote.map fun knote =>
            { knote with pending := {} } }
    else
      table fd

/-- The descriptor is open on the vnode and armed. -/
def Armed (table : Table Vnode Udata) (fd : Nat) (vnode : Vnode)
    (udata : Udata) : Prop :=
  ∃ pending, table fd = some ⟨vnode, some ⟨udata, pending⟩⟩

/-- The descriptor is open on the vnode and not armed. -/
def Unarmed (table : Table Vnode Udata) (fd : Nat) (vnode : Vnode) : Prop :=
  table fd = some ⟨vnode, none⟩

/-- Something of the kind has been reported on the descriptor and is either
still in the queue or in the batch that is being handled. -/
def Undelivered (table : Table Vnode Udata) (batch : List (Event Udata))
    (fd : Nat) (udata : Udata) (kind : Flags → Bool) : Prop :=
  (∃ descriptor, table fd = some descriptor ∧
      kind descriptor.pending = true) ∨
    ∃ event ∈ batch, event.ident = fd ∧ event.udata = udata ∧
      kind event.fflags = true

/-! ## What the operations do to a descriptor -/

variable {table : Table Vnode Udata} {fd : Nat} {vnode : Vnode} {udata : Udata}

theorem Armed.ne_of_unarmed (armed : table.Armed fd vnode udata) {other : Nat}
    {otherVnode : Vnode} (unarmed : table.Unarmed other otherVnode) :
    fd ≠ other := by
  rintro rfl
  obtain ⟨pending, found⟩ := armed
  rw [Unarmed, found] at unarmed
  cases unarmed

theorem Armed.ne_of_udata (armed : table.Armed fd vnode udata) {other : Nat}
    {otherVnode : Vnode} {otherUdata : Udata}
    (otherArmed : table.Armed other otherVnode otherUdata)
    (differ : udata ≠ otherUdata) : fd ≠ other := by
  rintro rfl
  obtain ⟨pending, found⟩ := armed
  obtain ⟨otherPending, otherFound⟩ := otherArmed
  rw [found] at otherFound
  cases otherFound
  exact differ rfl

theorem Armed.ne_of_vnode (armed : table.Armed fd vnode udata) {other : Nat}
    {otherVnode : Vnode} {otherUdata : Udata}
    (otherArmed : table.Armed other otherVnode otherUdata)
    (differ : vnode ≠ otherVnode) : fd ≠ other := by
  rintro rfl
  obtain ⟨pending, found⟩ := armed
  obtain ⟨otherPending, otherFound⟩ := otherArmed
  rw [found] at otherFound
  cases otherFound
  exact differ rfl

theorem armed_arm (unarmed : table.Unarmed fd vnode) (udata : Udata) :
    (table.arm fd udata).Armed fd vnode udata := by
  refine ⟨{}, ?_⟩
  rw [arm, Function.update_self, unarmed]
  rfl

theorem unarmed_disarm (armed : table.Armed fd vnode udata) :
    (table.disarm fd).Unarmed fd vnode := by
  obtain ⟨pending, found⟩ := armed
  rw [Unarmed, disarm, Function.update_self, found]
  rfl

section Report

variable [DecidableEq Vnode] (reported : Vnode) (flags : Flags)

theorem report_same {pending : Flags}
    (found : table fd = some ⟨vnode, some ⟨udata, pending⟩⟩) :
    table.report vnode flags fd =
      some ⟨vnode, some ⟨udata, pending.add flags⟩⟩ := by
  simp [Table.report, found]

theorem report_other {descriptor : Descriptor Vnode Udata}
    (found : table fd = some descriptor) (other : descriptor.vnode ≠ reported) :
    table.report reported flags fd = some descriptor := by
  simp [Table.report, found, other]

theorem Armed.report (armed : table.Armed fd vnode udata) :
    (table.report reported flags).Armed fd vnode udata := by
  obtain ⟨pending, found⟩ := armed
  by_cases same : vnode = reported
  · subst same
    exact ⟨pending.add flags, report_same flags found⟩
  · exact ⟨pending, report_other reported flags found same⟩

theorem Unarmed.report (unarmed : table.Unarmed fd vnode) :
    (table.report reported flags).Unarmed fd vnode := by
  rw [Unarmed] at unarmed ⊢
  simp [Table.report, unarmed]

theorem Undelivered.report {batch : List (Event Udata)} {kind : Flags → Bool}
    (persists : Flags.Persists kind) (armed : table.Armed fd vnode udata)
    (undelivered : table.Undelivered batch fd udata kind) :
    (table.report reported flags).Undelivered batch fd udata kind := by
  rcases undelivered with ⟨descriptor, found, pending⟩ | inBatch
  · left
    obtain ⟨before, foundArmed⟩ := armed
    rw [foundArmed] at found
    obtain rfl := Option.some.inj found
    by_cases same : vnode = reported
    · subst same
      exact ⟨_, report_same flags foundArmed,
        persists before flags (Or.inl pending)⟩
    · exact ⟨_, report_other reported flags foundArmed same, pending⟩
  · exact Or.inr inBatch

/-- What is reported on the vnode of an armed descriptor is to be delivered. -/
theorem undelivered_report {kind : Flags → Bool}
    (persists : Flags.Persists kind) (armed : table.Armed fd vnode udata)
    {flags : Flags} (isKind : kind flags = true) (batch : List (Event Udata)) :
    (table.report vnode flags).Undelivered batch fd udata kind := by
  obtain ⟨pending, found⟩ := armed
  left
  exact ⟨_, report_same flags found, persists pending flags (Or.inr isKind)⟩

end Report

section Clear

variable (fds : List Nat)

theorem Armed.clear (armed : table.Armed fd vnode udata) :
    (table.clear fds).Armed fd vnode udata := by
  obtain ⟨pending, found⟩ := armed
  by_cases read : fd ∈ fds
  · exact ⟨{}, by simp [Table.clear, read, found]⟩
  · exact ⟨pending, by simp [Table.clear, read, found]⟩

theorem Unarmed.clear (unarmed : table.Unarmed fd vnode) :
    (table.clear fds).Unarmed fd vnode := by
  rw [Unarmed] at unarmed ⊢
  simp [Table.clear, unarmed]

/-- What is read from the queue is in the batch. -/
theorem Undelivered.clear {kind : Flags → Bool}
    (armed : table.Armed fd vnode udata)
    (undelivered : table.Undelivered [] fd udata kind) :
    (table.clear fds).Undelivered (table.events fds) fd udata kind := by
  obtain ⟨before, foundArmed⟩ := armed
  rcases undelivered with ⟨descriptor, found, pending⟩ | ⟨_, absurd, _⟩
  · rw [foundArmed] at found
    obtain rfl := Option.some.inj found
    by_cases read : fd ∈ fds
    · right
      refine ⟨⟨fd, udata, before⟩, ?_, rfl, rfl, pending⟩
      rw [events, List.mem_filterMap]
      exact ⟨fd, read, by simp [foundArmed]⟩
    · left
      exact ⟨_, by simp [Table.clear, read, foundArmed], pending⟩
  · cases absurd

end Clear

/-! ## Reports and reads -/

/-- The descriptors stay as they are, and what was to be delivered still is. -/
structure Grows (table : Table Vnode Udata) (batch : List (Event Udata))
    (next : Table Vnode Udata) (nextBatch : List (Event Udata)) : Prop where
  armed : ∀ fd vnode udata, table.Armed fd vnode udata →
    next.Armed fd vnode udata
  unarmed : ∀ fd vnode, table.Unarmed fd vnode → next.Unarmed fd vnode
  undelivered : ∀ fd vnode udata kind, Flags.Persists kind →
    table.Armed fd vnode udata → table.Undelivered batch fd udata kind →
      next.Undelivered nextBatch fd udata kind

theorem Grows.trans {next last : Table Vnode Udata}
    {batch nextBatch lastBatch : List (Event Udata)}
    (first : Grows table batch next nextBatch)
    (second : Grows next nextBatch last lastBatch) :
    Grows table batch last lastBatch where
  armed := fun fd vnode udata armed =>
    second.armed fd vnode udata (first.armed fd vnode udata armed)
  unarmed := fun fd vnode unarmed =>
    second.unarmed fd vnode (first.unarmed fd vnode unarmed)
  undelivered := fun fd vnode udata kind persists armed undelivered =>
    second.undelivered fd vnode udata kind persists
      (first.armed fd vnode udata armed)
      (first.undelivered fd vnode udata kind persists armed undelivered)

theorem grows_refl (table : Table Vnode Udata) (batch : List (Event Udata)) :
    Grows table batch table batch where
  armed := fun _ _ _ armed => armed
  unarmed := fun _ _ unarmed => unarmed
  undelivered := fun _ _ _ _ _ _ undelivered => undelivered

theorem grows_report [DecidableEq Vnode] (table : Table Vnode Udata)
    (batch : List (Event Udata)) (reported : Vnode) (flags : Flags) :
    Grows table batch (table.report reported flags) batch where
  armed := fun _ _ _ armed => armed.report reported flags
  unarmed := fun _ _ unarmed => unarmed.report reported flags
  undelivered := fun _ _ _ _ persists armed undelivered =>
    undelivered.report reported flags persists armed

/-- A descriptor that was not open is opened. -/
theorem grows_openFile (batch : List (Event Udata)) (free : table fd = none)
    (vnode : Vnode) : Grows table batch (table.openFile fd vnode) batch where
  armed := by
    rintro other otherVnode udata ⟨pending, found⟩
    have differ : other ≠ fd := by
      rintro rfl
      rw [free] at found
      cases found
    exact ⟨pending, (Function.update_of_ne differ _ _).trans found⟩
  unarmed := by
    intro other otherVnode unarmed
    have differ : other ≠ fd := by
      rintro rfl
      rw [Unarmed, free] at unarmed
      cases unarmed
    exact (Function.update_of_ne differ _ _).trans unarmed
  undelivered := by
    rintro other otherVnode udata kind _ _ (⟨descriptor, found, pending⟩ | later)
    · have differ : other ≠ fd := by
        rintro rfl
        rw [free] at found
        cases found
      exact Or.inl
        ⟨descriptor, (Function.update_of_ne differ _ _).trans found, pending⟩
    · exact Or.inr later

theorem grows_clear (table : Table Vnode Udata) (fds : List Nat) :
    Grows table [] (table.clear fds) (table.events fds) where
  armed := fun _ _ _ armed => armed.clear fds
  unarmed := fun _ _ unarmed => unarmed.clear fds
  undelivered := fun _ _ _ _ _ armed undelivered => undelivered.clear fds armed

/-- A change of other descriptors, and of other events of the batch, leaves
what is to be delivered. -/
theorem Undelivered.frame {next : Table Vnode Udata}
    {batch nextBatch : List (Event Udata)} {kind : Flags → Bool}
    (undelivered : table.Undelivered batch fd udata kind)
    (kept : next fd = table fd)
    (keptEvents : ∀ event ∈ batch, event.ident = fd → event.udata = udata →
      kind event.fflags = true → event ∈ nextBatch) :
    next.Undelivered nextBatch fd udata kind := by
  rcases undelivered with inQueue | ⟨event, member, ident, data, isKind⟩
  · left
    rw [kept]
    exact inQueue
  · right
    exact ⟨event, keptEvents event member ident data isKind, ident, data, isKind⟩

/-- Once nothing can be read and the batch is empty, nothing is to be
delivered. -/
theorem not_undelivered (nothingReady : ∀ fd, table.ready fd = false)
    {kind : Flags → Bool} (onlySome : kind = Flags.gone ∨ kind = Flags.any) :
    ¬ table.Undelivered [] fd udata kind := by
  rintro (⟨descriptor, found, pending⟩ | ⟨_, absurd, _⟩)
  · have notReady := nothingReady fd
    rw [ready, found] at notReady
    simp only [Flags.any, Bool.or_eq_false_iff] at notReady
    rcases onlySome with rfl | rfl
    · rw [notReady.1] at pending
      cases pending
    · simp [Flags.any, notReady.1, notReady.2] at pending
  · cases absurd

end Table

end VnodeQueue
