import Birch.Observable

/-!
# Notifying the registered observers

Between two operations the vector of an `Observable` has what was registered,
less some pointers to expired observers.  A loop under the mutex keeps this of
the pointers that it leaves and the ones that it has not come to.
-/

namespace Birch.Observable

open ChangeHistory LiveEntries

variable {Observer : Type*} [DecidableEq Observer]

def isLive (strong : List Observer) (weak : WeakPtr Observer) : Bool :=
  (lock strong weak).isSome

theorem isLive_iff (strong : List Observer)
    (weak : WeakPtr Observer) :
    isLive strong weak = true ↔ ∃ observer ∈ strong, weak = some observer := by
  cases weak with
  | none => simp [isLive, lock]
  | some observer =>
      by_cases member : observer ∈ strong <;> simp [isLive, lock, member]

theorem isLive_eq_false_of_expired {strong : List Observer}
    {weak : WeakPtr Observer} (gone : expired strong weak = true) :
    isLive strong weak = false := by
  rw [expired, Option.isNone_iff_eq_none] at gone
  rw [isLive, gone]
  rfl

/-! ## What the pointers list -/

/-- The pointers are the registered ones up to expired ones. -/
structure Listed (strong : List Observer)
    (history : List (Change (WeakPtr Observer)))
    (pointers : List (WeakPtr Observer)) : Prop where
  sublist : pointers.Sublist (remaining history)
  live : SameLive (isLive strong) pointers (remaining history)

namespace Listed

variable {strong later : List Observer}
  {history : List (Change (WeakPtr Observer))}
  {pointers : List (WeakPtr Observer)}

theorem fade (listed : Listed strong history pointers)
    (fades : ∀ observer ∈ later, observer ∈ strong ∨
      some observer ∉ remaining history) :
    Listed later history pointers := by
  have inHistory : ∀ weak ∈ remaining history, isLive later weak = true →
      isLive strong weak = true := by
    intro weak member isLater
    obtain ⟨observer, there, rfl⟩ := (isLive_iff later weak).mp isLater
    rcases fades observer there with before | unknown
    · exact (isLive_iff strong _).mpr ⟨observer, before, rfl⟩
    · exact absurd member unknown
  refine ⟨listed.sublist, listed.live.fade ?_ inHistory⟩
  intro weak member
  exact inHistory weak (listed.sublist.subset member)

theorem add (listed : Listed strong history pointers)
    (observer : WeakPtr Observer) :
    Listed strong (history ++ [.add observer]) (pointers ++ [observer]) := by
  constructor
  · rw [remaining_concat_add]
    exact listed.sublist.append (List.Sublist.refl _)
  · rw [remaining_concat_add]
    exact listed.live.append (SameLive.refl _)

theorem remove (listed : Listed strong history pointers)
    (observer : WeakPtr Observer) :
    Listed strong (history ++ [.remove (· = observer)])
      (pointers.filter (· ≠ observer)) := by
  have kept : remaining (history ++ [.remove (· = observer)]) =
      (remaining history).filter (· ≠ observer) := by
    rw [remaining_concat_remove]
    simp
  constructor
  · rw [kept]
    exact listed.sublist.filter _
  · rw [kept]
    exact listed.live.filter _

theorem clear : Listed strong (history ++ [.remove fun _ => true]) [] := by
  have none : remaining (history ++ [.remove fun _ => true]) = [] := by
    rw [remaining_concat_remove]
    simp
  constructor
  · exact List.nil_sublist _
  · rw [none]
    exact SameLive.refl []

/-- A pointer to an expired observer is dropped. -/
theorem drop {before after : List (WeakPtr Observer)} {weak : WeakPtr Observer}
    (listed : Listed strong history (before ++ weak :: after))
    (gone : expired strong weak = true) :
    Listed strong history (before ++ after) := by
  constructor
  · have fewer : (before ++ after).Sublist (before ++ weak :: after) :=
      (List.Sublist.refl before).append (List.sublist_cons_self weak after)
    exact fewer.trans listed.sublist
  · exact listed.live.drop (isLive_eq_false_of_expired gone)

end Listed

/-! ## What an operation can do -/

/-- What a step can do. -/
inductive Moves (state : Observable Observer) :
    Event Observer → Observable Observer → Prop
  | create {observer : Observer} (fresh : observer ∉ state.created) :
      Moves state (.create observer)
        { state with
          owned := observer :: state.owned
          created := observer :: state.created }
  | share {observer : Observer} (alive : observer ∈ state.strong) :
      Moves state (.share observer)
        { state with owned := observer :: state.owned }
  | drop (observer : Observer) :
      Moves state (.drop observer)
        { state with owned := state.owned.filter (· ≠ observer) }
  | addObserver {observer : Option Observer} (unlocked : state.critical = none)
      (held : ∀ o ∈ observer.toList, o ∈ state.strong) :
      Moves state (.addObserver observer) (state.addObserver observer)
  | removeObserver {observer : Option Observer}
      (unlocked : state.critical = none)
      (held : ∀ o ∈ observer.toList, o ∈ state.strong) :
      Moves state (.removeObserver observer) (state.removeObserver observer)
  | clear (unlocked : state.critical = none) : Moves state .clear state.clear
  | notify (unlocked : state.critical = none) :
      Moves state .notify state.notify
  | examine {critical : Critical Observer} {weak : WeakPtr Observer}
      {rest : List (WeakPtr Observer)} (locked : state.critical = some critical)
      (next : critical.rest = weak :: rest) :
      Moves state .examine
        { state with critical := some (state.examine critical weak rest) }
  | endLoop {critical : Critical Observer}
      (locked : state.critical = some critical) (ended : critical.rest = []) :
      Moves state .endLoop (state.endLoop critical)
  | call {index : Nat} {notification : Notification Observer}
      {observer : Observer} {pending : List Observer}
      (found : state.notifications[index]? = some notification)
      (next : notification.pending = observer :: pending) :
      Moves state (.call index)
        { state with
          notifications := state.notifications.set index { notification with
            called := notification.called ++ [observer]
            pending } }
  | finish {index : Nat} {notification : Notification Observer}
      (found : state.notifications[index]? = some notification)
      (ended : notification.pending = []) :
      Moves state (.finish index)
        { state with
          notifications := state.notifications.set index { notification with
            pending := []
            finished := true } }

theorem moves_of_step {state next : Observable Observer}
    {event : Event Observer} (stepped : state.step event = some next) :
    Moves state event next := by
  cases event with
  | create observer =>
      obtain ⟨fresh, result⟩ := Option.ite_none_left_eq_some.mp stepped
      cases result
      exact .create fresh
  | share observer =>
      obtain ⟨alive, result⟩ := Option.ite_none_right_eq_some.mp stepped
      cases result
      exact .share alive
  | drop observer =>
      cases stepped
      exact .drop observer
  | addObserver observer =>
      obtain ⟨guard, result⟩ := Option.ite_none_right_eq_some.mp stepped
      cases result
      exact .addObserver (Option.isNone_iff_eq_none.mp guard.1) guard.2
  | removeObserver observer =>
      obtain ⟨guard, result⟩ := Option.ite_none_right_eq_some.mp stepped
      cases result
      exact .removeObserver (Option.isNone_iff_eq_none.mp guard.1) guard.2
  | clear =>
      obtain ⟨unlocked, result⟩ := Option.ite_none_right_eq_some.mp stepped
      cases result
      exact .clear (Option.isNone_iff_eq_none.mp unlocked)
  | notify =>
      obtain ⟨unlocked, result⟩ := Option.ite_none_right_eq_some.mp stepped
      cases result
      exact .notify (Option.isNone_iff_eq_none.mp unlocked)
  | examine =>
      rw [step] at stepped
      cases locked : state.critical with
      | none =>
          rw [locked] at stepped
          cases stepped
      | some critical =>
          rw [locked] at stepped
          cases next : critical.rest with
          | nil => simp only [next, reduceCtorEq] at stepped
          | cons weak rest =>
              simp only [next, Option.some.injEq] at stepped
              subst stepped
              exact .examine locked next
  | endLoop =>
      rw [step] at stepped
      cases locked : state.critical with
      | none =>
          rw [locked] at stepped
          cases stepped
      | some critical =>
          rw [locked] at stepped
          cases ended : critical.rest with
          | nil =>
              simp only [ended, Option.some.injEq] at stepped
              subst stepped
              exact .endLoop locked ended
          | cons weak rest => simp only [ended, reduceCtorEq] at stepped
  | call index =>
      rw [step] at stepped
      cases found : state.notifications[index]? with
      | none =>
          rw [found] at stepped
          cases stepped
      | some notification =>
          rw [found] at stepped
          cases next : notification.pending with
          | nil => simp only [next, reduceCtorEq] at stepped
          | cons observer pending =>
              simp only [next, Option.some.injEq] at stepped
              subst stepped
              exact .call found next
  | finish index =>
      rw [step] at stepped
      cases found : state.notifications[index]? with
      | none =>
          rw [found] at stepped
          cases stepped
      | some notification =>
          rw [found] at stepped
          cases ended : notification.pending with
          | nil =>
              simp only [ended, Option.some.injEq] at stepped
              subst stepped
              exact .finish found ended
          | cons observer pending => simp only [ended, reduceCtorEq] at stepped

/-! ## The strong pointers -/

section Strong

variable {Observer : Type*} {state : Observable Observer} {observer : Observer}

theorem strong_of_parts {Property : Observer → Prop}
    (owned : ∀ observer ∈ state.owned, Property observer)
    (held : ∀ critical, state.critical = some critical →
      ∀ observer ∈ critical.held, Property observer)
    (notified : ∀ notification ∈ state.notifications,
      ∀ observer ∈ notification.held, Property observer) :
    ∀ observer ∈ state.strong, Property observer := by
  intro observer member
  rcases List.mem_append.mp member with inOwned | others
  · exact owned observer inOwned
  · rcases List.mem_append.mp others with inHeld | inNotified
    · cases locked : state.critical with
      | none =>
          rw [locked] at inHeld
          cases inHeld
      | some critical =>
          rw [locked] at inHeld
          exact held critical locked observer inHeld
    · obtain ⟨notification, there, inPending⟩ := List.mem_flatMap.mp inNotified
      exact notified notification there observer inPending

theorem strong_of_owned (owned : observer ∈ state.owned) :
    observer ∈ state.strong :=
  List.mem_append_left _ owned

theorem strong_of_held {critical : Critical Observer}
    (locked : state.critical = some critical)
    (held : observer ∈ critical.held) : observer ∈ state.strong := by
  apply List.mem_append_right
  apply List.mem_append_left
  rw [locked]
  exact held

theorem strong_of_notified {notification : Notification Observer}
    (member : notification ∈ state.notifications)
    (held : observer ∈ notification.held) : observer ∈ state.strong :=
  List.mem_append_right _
    (List.mem_append_right _ (List.mem_flatMap.mpr ⟨notification, member, held⟩))

theorem notified_set {index : Nat} {notification changed : Notification Observer}
    (found : state.notifications[index]? = some notification)
    (fewer : ∀ observer ∈ changed.held, observer ∈ notification.held) :
    ∀ other ∈ state.notifications.set index changed,
      ∀ observer ∈ other.held, observer ∈ state.strong := by
  intro other member observer held
  rcases List.mem_or_eq_of_mem_set member with old | rfl
  · exact strong_of_notified old held
  · exact strong_of_notified (List.mem_of_getElem? found) (fewer observer held)

theorem notified_startCalls {held due : List Observer}
    (alive : ∀ observer ∈ held, observer ∈ state.strong) :
    ∀ other ∈ state.notifications ++ [{ due, pending := held }],
      ∀ observer ∈ other.held, observer ∈ state.strong := by
  intro other member observer inHeld
  rcases List.mem_append.mp member with old | new
  · exact strong_of_notified old inHeld
  · rw [List.mem_singleton.mp new] at inHeld
    exact alive observer (by simpa [Notification.held] using inHeld)

end Strong

theorem strong_of_lock {strong : List Observer} {weak : WeakPtr Observer}
    {observer : Observer} (locked : lock strong weak = some observer) :
    observer ∈ strong ∧ weak = some observer := by
  cases weak with
  | none => cases locked
  | some other =>
      rw [lock] at locked
      split at locked
      · rename_i alive
        cases locked
        exact ⟨alive, rfl⟩
      · cases locked

theorem strong_of_examine {state : Observable Observer}
    {critical : Critical Observer} (locked : state.critical = some critical)
    (weak : WeakPtr Observer) (rest : List (WeakPtr Observer)) :
    ∀ observer ∈ (state.examine critical weak rest).held,
      observer ∈ state.strong := by
  intro observer held
  have before : observer ∈ critical.held → observer ∈ state.strong :=
    strong_of_held locked
  unfold examine at held
  split at held
  · split at held <;> exact before held
  · split at held
    · exact before held
    · split at held <;> exact before held
  · rcases List.mem_append.mp held with old | new
    · exact before old
    · exact (strong_of_lock (Option.mem_toList.mp new)).1

theorem strong_of_endLoop {state : Observable Observer}
    {critical : Critical Observer} (locked : state.critical = some critical) :
    ∀ observer ∈ (state.endLoop critical).strong, observer ∈ state.strong := by
  have owned : ∀ observer ∈ state.owned, observer ∈ state.strong :=
    fun _ => strong_of_owned
  have notified : ∀ notification ∈ state.notifications,
      ∀ observer ∈ notification.held, observer ∈ state.strong :=
    fun _ member _ => strong_of_notified member
  have held : ∀ observer ∈ critical.held, observer ∈ state.strong :=
    fun _ => strong_of_held locked
  unfold endLoop
  split
  · exact strong_of_parts owned (fun _ busy => nomatch busy) notified
  · exact strong_of_parts owned (fun _ busy => nomatch busy)
      (notified_startCalls held)
  · exact strong_of_parts owned (fun _ busy => nomatch busy) notified
  · split
    · refine strong_of_parts owned ?_ notified
      intro other busy
      cases busy
      exact held
    · exact strong_of_parts owned (fun _ busy => nomatch busy)
        (notified_startCalls held)

/-- No step makes a strong pointer to an observer that there is none to, but
for a new observer. -/
theorem Moves.strong {state next : Observable Observer} {event : Event Observer}
    (moved : Moves state event next) :
    ∀ observer ∈ next.strong, observer ∈ state.strong ∨
      observer ∉ state.created ∧ observer ∈ next.created := by
  have owned : ∀ observer ∈ state.owned, observer ∈ state.strong :=
    fun _ => strong_of_owned
  have critical : ∀ critical, state.critical = some critical →
      ∀ observer ∈ critical.held, observer ∈ state.strong :=
    fun _ locked _ => strong_of_held locked
  have notified : ∀ notification ∈ state.notifications,
      ∀ observer ∈ notification.held, observer ∈ state.strong :=
    fun _ member _ => strong_of_notified member
  have old (kept : ∀ observer ∈ next.strong, observer ∈ state.strong) :
      ∀ observer ∈ next.strong, observer ∈ state.strong ∨
        observer ∉ state.created ∧ observer ∈ next.created :=
    fun observer there => Or.inl (kept observer there)
  cases moved with
  | create fresh =>
      refine strong_of_parts ?_ (fun other locked observer held =>
        Or.inl (critical other locked observer held))
        (fun other member observer held =>
          Or.inl (notified other member observer held))
      intro observer member
      rcases List.mem_cons.mp member with rfl | before
      · exact Or.inr ⟨fresh, List.mem_cons_self⟩
      · exact Or.inl (owned observer before)
  | share alive =>
      apply old
      refine strong_of_parts ?_ critical notified
      intro observer member
      rcases List.mem_cons.mp member with rfl | before
      · exact alive
      · exact owned observer before
  | drop dropped =>
      apply old
      refine strong_of_parts ?_ critical notified
      intro observer member
      exact owned observer (List.mem_filter.mp member).1
  | addObserver unlocked held =>
      apply old
      refine strong_of_parts owned ?_ notified
      intro other busy
      cases busy
      exact held
  | removeObserver unlocked held =>
      apply old
      refine strong_of_parts owned ?_ notified
      intro other busy
      cases busy
      exact held
  | clear unlocked => exact old (strong_of_parts owned critical notified)
  | notify unlocked =>
      apply old
      refine strong_of_parts owned ?_ notified
      intro other busy observer held
      cases busy
      cases held
  | examine locked further =>
      apply old
      refine strong_of_parts owned ?_ notified
      intro other busy
      cases busy
      exact strong_of_examine locked _ _
  | endLoop locked ended => exact old (strong_of_endLoop locked)
  | call found further =>
      apply old
      refine strong_of_parts owned critical (notified_set found ?_)
      intro observer
      simp [Notification.held, further]
  | finish found ended =>
      apply old
      refine strong_of_parts owned critical (notified_set found ?_)
      intro observer held
      cases held

theorem Moves.strong_subset {state next : Observable Observer}
    {event : Event Observer} (moved : Moves state event next)
    (sameCreated : next.created = state.created) :
    ∀ observer ∈ next.strong, observer ∈ state.strong := by
  intro observer there
  rcases moved.strong observer there with before | ⟨fresh, created⟩
  · exact before
  · exact absurd (sameCreated ▸ created) fresh

/-! ## The loops -/

/-- What the loop of an operation keeps. -/
def Critical.Consistent (critical : Critical Observer)
    (state : Observable Observer) : Prop :=
  match critical.loop with
  | .eraseDeallocated notifies =>
      Listed state.strong state.history (critical.seen ++ critical.rest) ∧
        (notifies = true → critical.held = critical.due)
  | .removeObserver observer =>
      Listed state.strong state.history
        (critical.seen ++ critical.rest.filter (· ≠ observer))
  | .collectLive =>
      Listed state.strong state.history state.observers ∧
        critical.seen ++ critical.rest = state.observers ∧
          critical.held = critical.seen.filterMap (lock state.strong)

/-- The observers that were found alive stay so, and the others expired. -/
theorem filterMap_lock_fade {strong later : List Observer}
    {history : List (Change (WeakPtr Observer))}
    {pointers : List (WeakPtr Observer)}
    (registered : ∀ weak ∈ pointers, weak ∈ remaining history)
    (held : ∀ observer ∈ pointers.filterMap (lock strong), observer ∈ later)
    (fades : ∀ observer ∈ later, observer ∈ strong ∨
      some observer ∉ remaining history) :
    pointers.filterMap (lock strong) = pointers.filterMap (lock later) := by
  apply List.filterMap_congr
  intro weak member
  cases weak with
  | none => rfl
  | some observer =>
      by_cases alive : observer ∈ strong
      · have found : lock strong (some observer) = some observer := if_pos alive
        have stays : observer ∈ later :=
          held observer (List.mem_filterMap.mpr ⟨_, member, found⟩)
        simp [lock, alive, stays]
      · have gone : observer ∉ later := by
          intro there
          rcases fades observer there with before | unknown
          · exact alive before
          · exact unknown (registered _ member)
        simp [lock, alive, gone]

namespace Critical.Consistent

variable {critical : Critical Observer} {state next : Observable Observer}

theorem fade (consistent : critical.Consistent state)
    (sameObservers : next.observers = state.observers)
    (sameHistory : next.history = state.history)
    (held : ∀ observer ∈ critical.held, observer ∈ next.strong)
    (fades : ∀ observer ∈ next.strong, observer ∈ state.strong ∨
      some observer ∉ remaining state.history) :
    critical.Consistent next := by
  unfold Consistent at consistent ⊢
  rw [sameHistory, sameObservers]
  cases loopEq : critical.loop with
  | eraseDeallocated notifies =>
      rw [loopEq] at consistent
      exact ⟨consistent.1.fade fades, consistent.2⟩
  | removeObserver observer =>
      rw [loopEq] at consistent
      exact consistent.fade fades
  | collectLive =>
      rw [loopEq] at consistent
      obtain ⟨listed, split, heldEq⟩ := consistent
      refine ⟨listed.fade fades, split, ?_⟩
      rw [heldEq] at held ⊢
      apply filterMap_lock_fade _ held fades
      intro weak member
      apply listed.sublist.subset
      rw [← split]
      exact List.mem_append_left _ member

/-- One turn of the loop. -/
theorem examine (consistent : critical.Consistent state)
    {weak : WeakPtr Observer} {rest : List (WeakPtr Observer)}
    (next : critical.rest = weak :: rest) :
    (state.examine critical weak rest).Consistent state := by
  unfold Consistent at consistent
  cases loopEq : critical.loop with
  | eraseDeallocated notifies =>
      rw [loopEq, next] at consistent
      obtain ⟨listed, heldEq⟩ := consistent
      by_cases gone : expired state.strong weak = true
      · simp only [Observable.examine, Consistent, loopEq, gone, if_true]
        exact ⟨listed.drop gone, heldEq⟩
      · simp only [Observable.examine, Consistent, loopEq, gone,
          Bool.false_eq_true, if_false, List.append_assoc,
          List.singleton_append]
        exact ⟨listed, heldEq⟩
  | removeObserver observer =>
      simp only [loopEq, next] at consistent
      cases found : lock state.strong weak with
      | none =>
          have gone : expired state.strong weak = true := by
            rw [expired, found]
            rfl
          simp only [Observable.examine, Consistent, loopEq, found]
          by_cases same : weak = observer
          · rwa [List.filter_cons_of_neg (by simpa using same)] at consistent
          · rw [List.filter_cons_of_pos (by simpa using same)] at consistent
            exact consistent.drop gone
      | some ptr =>
          obtain ⟨_, rfl⟩ := strong_of_lock found
          simp only [Observable.examine, Consistent, loopEq, found]
          by_cases same : some ptr = observer
          · rw [List.filter_cons_of_neg (by simpa using same)] at consistent
            simpa only [if_pos same] using consistent
          · rw [List.filter_cons_of_pos (by simpa using same)] at consistent
            simpa only [if_neg same, List.append_assoc,
              List.singleton_append] using consistent
  | collectLive =>
      rw [loopEq, next] at consistent
      obtain ⟨listed, split, heldEq⟩ := consistent
      simp only [Observable.examine, Consistent, loopEq, List.append_assoc,
        List.singleton_append]
      refine ⟨listed, split, ?_⟩
      rw [List.filterMap_append, heldEq]
      cases found : lock state.strong weak with
      | none => simp [found]
      | some ptr => simp [found]

end Critical.Consistent

/-! ## What every step keeps -/

/-- The calls made and the ones to come are the ones that are due. -/
structure Notification.Accounts (notification : Notification Observer) :
    Prop where
  total : notification.called ++ notification.pending = notification.due
  ended : notification.finished = true → notification.pending = []

structure Registers (state : Observable Observer) : Prop where
  created : ∀ observer ∈ state.strong, observer ∈ state.created
  known : ∀ observer, some observer ∈ remaining state.history →
    observer ∈ state.created
  accounts : ∀ notification ∈ state.notifications, notification.Accounts
  unlocked : state.critical = none →
    Listed state.strong state.history state.observers
  locked : ∀ critical, state.critical = some critical →
    critical.Consistent state

theorem Moves.created {state next : Observable Observer}
    {event : Event Observer} (moved : Moves state event next) :
    ∀ observer ∈ state.created, observer ∈ next.created := by
  intro observer member
  cases moved with
  | create fresh => exact List.mem_cons_of_mem _ member
  | endLoop locked ended =>
      unfold Observable.endLoop
      split
      · exact member
      · exact member
      · exact member
      · split <;> exact member
  | share alive => exact member
  | drop dropped => exact member
  | addObserver unlocked held => exact member
  | removeObserver unlocked held => exact member
  | clear unlocked => exact member
  | notify unlocked => exact member
  | examine locked further => exact member
  | call found further => exact member
  | finish found ended => exact member

omit [DecidableEq Observer] in
theorem accounts_set {notifications : List (Notification Observer)}
    (accounts : ∀ notification ∈ notifications, notification.Accounts)
    {index : Nat} {changed : Notification Observer}
    (changedAccounts : changed.Accounts) :
    ∀ notification ∈ notifications.set index changed,
      notification.Accounts := by
  intro notification member
  rcases List.mem_or_eq_of_mem_set member with old | rfl
  · exact accounts notification old
  · exact changedAccounts

omit [DecidableEq Observer] in
theorem accounts_start {notifications : List (Notification Observer)}
    (accounts : ∀ notification ∈ notifications, notification.Accounts)
    {held due : List Observer} (heldEq : held = due) :
    ∀ notification ∈ notifications ++ [{ due, pending := held }],
      notification.Accounts := by
  intro notification member
  rcases List.mem_append.mp member with old | new
  · exact accounts notification old
  · rw [List.mem_singleton.mp new]
    exact ⟨heldEq, fun never => nomatch never⟩

namespace Registers

variable {state next : Observable Observer} {event : Event Observer}

/-- The mutex is unlocked and the pointers that the loop has left stay. -/
theorem afterLoop (registers : Registers state)
    (unlocked : next.critical = none)
    (sameHistory : next.history = state.history)
    (sameCreated : next.created = state.created)
    (strong : ∀ observer ∈ next.strong, observer ∈ state.strong)
    (accounts : ∀ notification ∈ next.notifications, notification.Accounts)
    (listed : Listed state.strong state.history next.observers) :
    Registers next := by
  refine ⟨?_, ?_, accounts, ?_, ?_⟩
  · intro observer there
    rw [sameCreated]
    exact registers.created observer (strong observer there)
  · rw [sameHistory, sameCreated]
    exact registers.known
  · intro _
    rw [sameHistory]
    exact listed.fade fun observer there => Or.inl (strong observer there)
  · intro critical locked
    rw [unlocked] at locked
    cases locked

/-- An operation has locked the mutex, or begins another loop under it. -/
theorem beforeLoop (registers : Registers state) {critical : Critical Observer}
    (locked : next.critical = some critical)
    (sameCreated : next.created = state.created)
    (strong : ∀ observer ∈ next.strong, observer ∈ state.strong)
    (known : ∀ observer, some observer ∈ remaining next.history →
      observer ∈ state.created)
    (sameNotifications : next.notifications = state.notifications)
    (consistent : critical.Consistent next) : Registers next := by
  refine ⟨?_, ?_, ?_, ?_, ?_⟩
  · intro observer there
    rw [sameCreated]
    exact registers.created observer (strong observer there)
  · rw [sameCreated]
    exact known
  · rw [sameNotifications]
    exact registers.accounts
  · intro unlocked
    rw [locked] at unlocked
    cases unlocked
  · intro other otherLocked
    rw [locked, Option.some.injEq] at otherLocked
    exact otherLocked ▸ consistent

theorem endLoop (registers : Registers state) {critical : Critical Observer}
    (locked : state.critical = some critical) (ended : critical.rest = []) :
    Registers (state.endLoop critical) := by
  have strong := strong_of_endLoop locked
  have consistent := registers.locked critical locked
  unfold Critical.Consistent at consistent
  unfold Observable.endLoop at strong ⊢
  cases loopEq : critical.loop with
  | eraseDeallocated notifies =>
      simp only [loopEq, ended, List.append_nil] at consistent
      cases notifies with
      | false =>
          simp only [loopEq] at strong ⊢
          exact registers.afterLoop rfl rfl rfl strong registers.accounts
            consistent.1
      | true =>
          simp only [loopEq] at strong ⊢
          exact registers.afterLoop rfl rfl rfl strong
            (accounts_start registers.accounts (consistent.2 rfl)) consistent.1
  | removeObserver observer =>
      simp only [loopEq, ended, List.filter_nil, List.append_nil] at consistent
      simp only [loopEq] at strong ⊢
      exact registers.afterLoop rfl rfl rfl strong registers.accounts consistent
  | collectLive =>
      simp only [loopEq, ended, List.append_nil] at consistent
      simp only [loopEq] at strong ⊢
      obtain ⟨listed, split, heldEq⟩ := consistent
      have heldDue : critical.held = state.registeredLive := by
        rw [heldEq, split]
        exact listed.live.filterMap
      by_cases fewer : critical.held.length ≠ state.observers.length
      · simp only [if_pos fewer] at strong ⊢
        refine registers.beforeLoop rfl rfl strong registers.known rfl ?_
        exact ⟨listed.fade fun observer there => Or.inl (strong observer there),
          fun _ => heldDue⟩
      · simp only [if_neg fewer] at strong ⊢
        exact registers.afterLoop rfl rfl rfl strong
          (accounts_start registers.accounts heldDue) listed

/-- The pointers and the operation at them stay as they are. -/
theorem sameList (registers : Registers state)
    (moved : Moves state event next)
    (sameObservers : next.observers = state.observers)
    (sameCritical : next.critical = state.critical)
    (sameHistory : next.history = state.history)
    (accounts : ∀ notification ∈ next.notifications, notification.Accounts) :
    Registers next := by
  have fades : ∀ observer ∈ next.strong, observer ∈ state.strong ∨
      some observer ∉ remaining state.history := by
    intro observer there
    rcases moved.strong observer there with before | ⟨fresh, _⟩
    · exact Or.inl before
    · exact Or.inr (mt (registers.known observer) fresh)
  refine ⟨?_, ?_, accounts, ?_, ?_⟩
  · intro observer there
    rcases moved.strong observer there with before | ⟨_, created⟩
    · exact moved.created observer (registers.created observer before)
    · exact created
  · rw [sameHistory]
    intro observer member
    exact moved.created observer (registers.known observer member)
  · rw [sameCritical, sameHistory, sameObservers]
    intro unlocked
    exact (registers.unlocked unlocked).fade fades
  · intro critical locked
    have before := registers.locked critical (sameCritical ▸ locked)
    exact before.fade sameObservers sameHistory
      (fun observer held => strong_of_held locked held) fades

theorem moves (registers : Registers state)
    (moved : Moves state event next) : Registers next := by
  cases moved with
  | create fresh =>
      exact registers.sameList (.create fresh) rfl rfl rfl registers.accounts
  | share alive =>
      exact registers.sameList (.share alive) rfl rfl rfl registers.accounts
  | drop observer =>
      exact registers.sameList (.drop observer) rfl rfl rfl registers.accounts
  | @addObserver observer unlocked held =>
      have strong := (Moves.addObserver unlocked held).strong_subset rfl
      have listed := (registers.unlocked unlocked).add observer
      refine registers.beforeLoop rfl rfl strong ?_ rfl ⟨?_, fun never => nomatch never⟩
      · intro other member
        rw [Observable.addObserver, remaining_concat_add] at member
        rcases List.mem_append.mp member with old | new
        · exact registers.known other old
        · rw [List.mem_singleton] at new
          exact registers.created other
            (held other (Option.mem_toList.mpr new.symm))
      · exact listed.fade fun other there => Or.inl (strong other there)
  | @removeObserver observer unlocked held =>
      have strong := (Moves.removeObserver unlocked held).strong_subset rfl
      have listed := (registers.unlocked unlocked).remove observer
      refine registers.beforeLoop rfl rfl strong ?_ rfl ?_
      · intro other member
        rw [Observable.removeObserver, remaining_concat_remove] at member
        exact registers.known other (List.mem_filter.mp member).1
      · exact listed.fade fun other there => Or.inl (strong other there)
  | clear unlocked =>
      have strong := (Moves.clear unlocked).strong_subset rfl
      refine ⟨?_, ?_, registers.accounts, fun _ => Listed.clear, ?_⟩
      · intro observer there
        exact registers.created observer (strong observer there)
      · intro observer member
        rw [Observable.clear, remaining_concat_remove] at member
        exact registers.known observer (List.mem_filter.mp member).1
      · intro critical locked
        have before : state.critical = some critical := locked
        rw [unlocked] at before
        cases before
  | notify unlocked =>
      have strong := (Moves.notify unlocked).strong_subset rfl
      have listed := registers.unlocked unlocked
      refine registers.beforeLoop rfl rfl strong registers.known rfl
        ⟨?_, rfl, rfl⟩
      exact listed.fade fun other there => Or.inl (strong other there)
  | examine locked further =>
      have strong := (Moves.examine locked further).strong_subset rfl
      have consistent := (registers.locked _ locked).examine further
      refine registers.beforeLoop rfl rfl strong registers.known rfl ?_
      exact consistent.fade rfl rfl (fun other held => strong_of_held rfl held)
        fun other there => Or.inl (strong other there)
  | endLoop locked ended => exact registers.endLoop locked ended
  | @call index notification observer pending found further =>
      refine registers.sameList (.call found further) rfl rfl rfl
        (accounts_set registers.accounts ?_)
      have before := registers.accounts notification (List.mem_of_getElem? found)
      constructor
      · rw [← before.total, further, List.append_assoc]
        rfl
      · intro finished
        have none := before.ended finished
        rw [further] at none
        cases none
  | @finish index notification found ended =>
      refine registers.sameList (.finish found ended) rfl rfl rfl
        (accounts_set registers.accounts ?_)
      have before := registers.accounts notification (List.mem_of_getElem? found)
      constructor
      · rw [← before.total, ended]
      · intro _
        rfl

end Registers

/-! ## Every operation comes to its end -/

/-- The loop goes through the pointers that are left. -/
theorem run_examine {state : Observable Observer} {critical : Critical Observer}
    (locked : state.critical = some critical) :
    ∃ next ended,
      EventRuns.run step state (List.replicate critical.rest.length .examine) =
        some next ∧
      next.critical = some ended ∧ ended.rest = [] ∧
        ended.loop = critical.loop := by
  induction restEq : critical.rest generalizing state critical with
  | nil => exact ⟨state, critical, rfl, locked, restEq, rfl⟩
  | cons weak rest ih =>
      have turned : state.step .examine = some { state with
          critical := some (state.examine critical weak rest) } := by
        simp only [step, locked, restEq]
      have left : (state.examine critical weak rest).rest = rest ∧
          (state.examine critical weak rest).loop = critical.loop := by
        unfold Observable.examine
        split
        · split <;> exact ⟨rfl, rfl⟩
        · split
          · exact ⟨rfl, rfl⟩
          · split <;> exact ⟨rfl, rfl⟩
        · exact ⟨rfl, rfl⟩
      have lockedNext : Observable.critical { state with
          critical := some (state.examine critical weak rest) } =
            some (state.examine critical weak rest) := rfl
      obtain ⟨next, ended, ran, lockedEnd, noRest, sameLoop⟩ :=
        ih lockedNext left.1
      refine ⟨next, ended, ?_, lockedEnd, noRest, sameLoop.trans left.2⟩
      rw [List.length_cons, List.replicate_succ, EventRuns.run, turned]
      exact ran

theorem run_endLoop {state : Observable Observer} {critical : Critical Observer}
    (locked : state.critical = some critical) :
    ∃ turns next ended, (∀ event ∈ turns, event = .examine ∨ event = .endLoop) ∧
      EventRuns.run step state turns = some (endLoop next ended) ∧
        ended.loop = critical.loop := by
  obtain ⟨next, ended, ran, lockedEnd, noRest, sameLoop⟩ := run_examine locked
  refine ⟨List.replicate critical.rest.length .examine ++ [.endLoop], next,
    ended, ?_, ?_, sameLoop⟩
  · intro event member
    rcases List.mem_append.mp member with turn | last
    · exact Or.inl (List.eq_of_mem_replicate turn)
    · exact Or.inr (List.mem_singleton.mp last)
  · rw [EventRuns.run_append, ran, Option.bind_some, EventRuns.run, step,
      lockedEnd]
    simp only [noRest]
    rfl

theorem critical_endLoop (state : Observable Observer)
    (critical : Critical Observer) :
    (state.endLoop critical).critical = none ∨
      ∃ erasing, (state.endLoop critical).critical = some erasing ∧
        erasing.loop = .eraseDeallocated true ∧ critical.loop = .collectLive := by
  unfold endLoop
  split
  · exact Or.inl rfl
  · exact Or.inl rfl
  · exact Or.inl rfl
  · rename_i loopEq
    split
    · exact Or.inr ⟨_, rfl, rfl, loopEq⟩
    · exact Or.inl rfl

/-- The operation that has locked the mutex unlocks it. -/
theorem exists_unlocks (state : Observable Observer) :
    ∃ turns next, (∀ event ∈ turns, event = .examine ∨ event = .endLoop) ∧
      EventRuns.run step state turns = some next ∧ next.critical = none := by
  cases locked : state.critical with
  | none => exact ⟨[], state, by simp, rfl, locked⟩
  | some critical =>
      obtain ⟨turns, next, ended, areTurns, ran, _⟩ := run_endLoop locked
      rcases critical_endLoop next ended with
        unlocked | ⟨erasing, relocked, erases, _⟩
      · exact ⟨turns, _, areTurns, ran, unlocked⟩
      · obtain ⟨more, last, lastEnded, areMore, ranMore, sameLoop⟩ :=
          run_endLoop relocked
        refine ⟨turns ++ more, last.endLoop lastEnded, ?_, ?_, ?_⟩
        · intro event member
          rcases List.mem_append.mp member with first | second
          · exact areTurns event first
          · exact areMore event second
        · rw [EventRuns.run_append, ran]
          exact ranMore
        · rcases critical_endLoop last lastEnded with
            unlocked | ⟨_, _, _, collects⟩
          · exact unlocked
          · rw [sameLoop, erases] at collects
            cases collects

/-- The function is called on each observer of the snapshot. -/
theorem run_calls {state : Observable Observer} {index : Nat}
    {notification : Notification Observer}
    (found : state.notifications[index]? = some notification) :
    ∃ next, EventRuns.run step state
        (List.replicate notification.pending.length (.call index) ++
          [.finish index]) = some next ∧
      next.notifications[index]? = some { notification with
        called := notification.called ++ notification.pending
        pending := []
        finished := true } := by
  induction pendingEq : notification.pending generalizing state notification with
  | nil =>
      have inRange := (List.getElem?_eq_some_iff.mp found).1
      refine ⟨{ state with
        notifications := state.notifications.set index { notification with
          pending := []
          finished := true } }, ?_, ?_⟩
      · simp only [List.length_nil, List.replicate_zero, List.nil_append,
          EventRuns.run, step, found, pendingEq, Option.bind_some]
      · rw [List.getElem?_set_self inRange, List.append_nil]
  | cons observer pending ih =>
      have inRange := (List.getElem?_eq_some_iff.mp found).1
      have called : state.step (.call index) = some { state with
          notifications := state.notifications.set index { notification with
            called := notification.called ++ [observer]
            pending } } := by
        simp only [step, found, pendingEq]
      have foundNext : (Observable.notifications { state with
          notifications := state.notifications.set index { notification with
            called := notification.called ++ [observer]
            pending } })[index]? = some { notification with
              called := notification.called ++ [observer]
              pending } := List.getElem?_set_self inRange
      obtain ⟨next, ran, foundEnd⟩ := ih foundNext rfl
      refine ⟨next, ?_, ?_⟩
      · rw [List.length_cons, List.replicate_succ, List.cons_append,
          EventRuns.run, called]
        exact ran
      · rw [foundEnd, List.append_assoc]
        rfl

theorem registers_new : Registers ({} : Observable Observer) := by
  refine ⟨?_, ?_, ?_, ?_, ?_⟩
  · intro observer there
    cases there
  · intro observer member
    cases member
  · intro notification member
    cases member
  · intro _
    exact ⟨List.Sublist.refl [], SameLive.refl []⟩
  · intro critical locked
    cases locked

theorem Registers.notifies {state : Observable Observer}
    (registers : Registers state) : NotifiesRegistered state := by
  refine ⟨?_, ?_, ?_, ?_, exists_unlocks state, fun _ _ => run_calls⟩
  · intro notification member
    exact ⟨notification.pending, (registers.accounts notification member).total⟩
  · intro notification member finished
    have accounts := registers.accounts notification member
    rw [← accounts.total, accounts.ended finished, List.append_nil]
  · intro unlocked
    exact (registers.unlocked unlocked).sublist
  · intro unlocked
    exact (registers.unlocked unlocked).live.filterMap

/-- Whatever is called while observers expire, and whatever the functions call
in turn. -/
theorem notifiesRegistered_throughout (events : List (Event Observer)) :
    EventRuns.Throughout step NotifiesRegistered {} events :=
  EventRuns.throughout_invariant (fun _ registers => registers.notifies)
    (fun _ _ _ registers stepped => registers.moves (moves_of_step stepped))
    registers_new events

-- 1 is registered twice, and 2, which is between the two, expires
example : (EventRuns.run step ({} : Observable Nat)
    [.create 1, .create 2, .addObserver (some 1), .examine, .endLoop,
      .addObserver (some 2), .examine, .examine, .endLoop,
      .addObserver (some 1), .examine, .examine, .examine, .endLoop, .drop 2,
      .notify, .examine, .examine, .examine, .endLoop,
      .examine, .examine, .examine, .endLoop, .call 0, .call 0, .finish 0]).map
    (fun state => (state.observers, state.notifications.map (·.called))) =
      some ([some 1, some 1], [[1, 1]]) := by
  rfl

end Birch.Observable
