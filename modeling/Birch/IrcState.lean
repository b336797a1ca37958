import Birch.ChannelMembers
import Birch.Message

/-!
# The channels of a network

`IrcState` keeps a channel for each name that `CreateChannel` has been called
with, and hands out shared pointers to them.  Members join and leave through
these pointers, and channels may be made without any `IrcState` as well.  This
file connects it to a registry that has a set of members for each name.
-/

namespace Birch

open ChangeHistory LinkedHashMap

/-- What a `std::shared_ptr<Channel>` refers to. -/
abbrev ChannelId := Nat

/-- A channel with its name. -/
structure NamedChannel {User : Type*} (getId : User → UserId) where
  name : Text
  channel : Channel getId

/-- `Channel::Create` takes any name. -/
def NamedChannel.create {User : Type*} (getId : User → UserId) (name : Text) :
    NamedChannel getId :=
  ⟨name, Channel.create getId⟩

/-- The `IrcState` and all channels that have been made, once its constructor has
returned.  That makes a strand over an empty executor, which nothing uses and
which asio may refuse to make. -/
structure IrcState {User : Type*} (getId : User → UserId) where
  channelsByName : LinkedHashMap Text ChannelId := ∅
  channels : List (NamedChannel getId) := []

inductive IrcCall (User : Type*)
  | createChannel (name : Text)
  /-- `Channel::Create` is called from elsewhere. -/
  | makeChannel (name : Text)
  | onChannel (id : ChannelId) (call : MembershipCall User)
  deriving DecidableEq

namespace IrcState

variable {User : Type*} {getId : User → UserId}

/-- The message of an `AlreadyExistsError`. -/
def alreadyExists (name : Text) : Text :=
  ascii "Channel " ++ name ++ ascii " already exists"

def createChannel (state : IrcState getId) (name : Text) :
    Except Text ChannelId × IrcState getId :=
  match state.channelsByName.lookup name with
  | some _ => (.error (alreadyExists name), state)
  | none =>
      (.ok state.channels.length,
        { channelsByName :=
            state.channelsByName.emplace name state.channels.length
          channels := state.channels ++ [NamedChannel.create getId name] })

/-- A call of a member function needs a channel to be there. -/
def step (state : IrcState getId) : IrcCall User → Option (IrcState getId)
  | .createChannel name => some (state.createChannel name).2
  | .makeChannel name => some { state with
      channels := state.channels ++ [NamedChannel.create getId name] }
  | .onChannel id call =>
      match state.channels[id]? with
      | none => none
      | some named => (call.run getId named.channel).map fun channel =>
          { state with
            channels := state.channels.set id ⟨named.name, channel⟩ }

end IrcState

def ircRun {User : Type*} {getId : User → UserId} :
    IrcState getId → List (IrcCall User) → Option (IrcState getId) :=
  EventRuns.run IrcState.step

variable {User : Type*} (getId : User → UserId)

/-- What a call is to do to the members of the channel. -/
def IrcCall.changeOn (id : ChannelId) : IrcCall User → Option (Change UserId)
  | .onChannel other call => if other = id then call.change getId else none
  | _ => none

/-- The ids that were added through the pointer and not removed since. -/
def memberIdsOn (id : ChannelId) (calls : List (IrcCall User)) : List UserId :=
  remaining (calls.filterMap (IrcCall.changeOn getId id))

/-- `CreateChannel` was called with the name and returned the pointer. -/
def Returned (calls : List (IrcCall User)) (name : Text) (id : ChannelId) :
    Prop :=
  ∃ (before after : List (IrcCall User)) (state : IrcState getId),
    calls = before ++ .createChannel name :: after ∧
      ircRun {} before = some state ∧ (state.createChannel name).1 = .ok id

/-- The channels of an `IrcState` after these calls. -/
structure KeepsChannels (calls : List (IrcCall User)) (state : IrcState getId) :
    Prop where
  /-- A name keeps the one channel that was ever returned for it. -/
  returned : ∀ name id, state.channelsByName.lookup name = some id ↔
    Returned getId calls name id
  /-- A name is refused from the first call with it on. -/
  refused : ∀ name,
    state.createChannel name = (.error (IrcState.alreadyExists name), state) ↔
      .createChannel name ∈ calls
  /-- The channel has the name and the members that it was given itself. -/
  own : ∀ name id, state.channelsByName.lookup name = some id →
    ∃ named, state.channels[id]? = some named ∧ named.name = name ∧
      ∀ user, user ∈ named.channel.members.keys ↔
        user ∈ memberIdsOn getId id calls

variable {getId}

/-! ## One call -/

namespace IrcState

variable {state : IrcState getId}

theorem createChannel_taken {name : Text} {id : ChannelId}
    (found : state.channelsByName.lookup name = some id) :
    state.createChannel name = (.error (alreadyExists name), state) := by
  rw [createChannel, found]

theorem createChannel_free {name : Text}
    (free : state.channelsByName.lookup name = none) :
    state.createChannel name =
      (.ok state.channels.length,
        { channelsByName :=
            state.channelsByName.emplace name state.channels.length
          channels :=
            state.channels ++ [NamedChannel.create getId name] }) := by
  rw [createChannel, free]

theorem createChannel_eq_error_iff {name : Text} :
    state.createChannel name = (.error (alreadyExists name), state) ↔
      name ∈ state.channelsByName.keys := by
  cases found : state.channelsByName.lookup name with
  | none =>
      rw [createChannel_free found]
      simp [(lookup_eq_none_iff _ name).mp found]
  | some id =>
      rw [createChannel_taken found]
      simp [mem_keys_of_lookup found]

end IrcState

/-- What holds of all channels, those that have no name in the `IrcState` as
well. -/
structure Populated (calls : List (IrcCall User)) (state : IrcState getId) :
    Prop where
  registered : ∀ name id, state.channelsByName.lookup name = some id →
    ∃ named, state.channels[id]? = some named ∧ named.name = name
  tracks : ∀ id named, state.channels[id]? = some named →
    Tracks named.channel.members (calls.filterMap (IrcCall.changeOn getId id))
  made : ∀ id call, .onChannel id call ∈ calls → id < state.channels.length

namespace Populated

variable {calls : List (IrcCall User)} {state : IrcState getId}

theorem filterMap_changeOn_concat {call : IrcCall User} (id : ChannelId)
    (unchanged : call.changeOn getId id = none) :
    (calls ++ [call]).filterMap (IrcCall.changeOn getId id) =
      calls.filterMap (IrcCall.changeOn getId id) := by
  simp [unchanged]

/-- Nothing was called on a channel before it was made. -/
theorem noChange (populated : Populated calls state) :
    calls.filterMap (IrcCall.changeOn getId state.channels.length) = [] := by
  apply List.filterMap_eq_nil_iff.mpr
  intro call member
  cases call with
  | createChannel name => rfl
  | makeChannel name => rfl
  | onChannel id call =>
      have earlier := populated.made id call member
      simp [IrcCall.changeOn, Nat.ne_of_lt earlier]

/-- A channel is made, by a call that does nothing on the others. -/
theorem make (populated : Populated calls state) {call : IrcCall User}
    (name : Text) (unchanged : ∀ id, call.changeOn getId id = none)
    (notOn : ∀ id other, .onChannel id other ≠ call)
    {next : IrcState getId}
    (channels : next.channels =
      state.channels ++ [NamedChannel.create getId name])
    (registered : ∀ other id, next.channelsByName.lookup other = some id →
      state.channelsByName.lookup other = some id ∨
        other = name ∧ id = state.channels.length) :
    Populated (calls ++ [call]) next := by
  refine ⟨?_, ?_, ?_⟩
  · intro other id found
    rw [channels]
    obtain old | ⟨rfl, rfl⟩ := registered other id found
    · obtain ⟨named, present, sameName⟩ := populated.registered other id old
      exact ⟨named, by rw [List.getElem?_append_left
        (List.getElem?_eq_some_iff.mp present).1, present], sameName⟩
    · exact ⟨NamedChannel.create getId other, List.getElem?_concat_length, rfl⟩
  · intro id named present
    rw [filterMap_changeOn_concat id (unchanged id)]
    rw [channels] at present
    by_cases earlier : id < state.channels.length
    · rw [List.getElem?_append_left earlier] at present
      exact populated.tracks id named present
    · have bound := (List.getElem?_eq_some_iff.mp present).1
      rw [List.length_append, List.length_singleton] at bound
      have last : id = state.channels.length :=
        Nat.eq_of_lt_succ_of_not_lt bound earlier
      subst last
      rw [List.getElem?_concat_length, Option.some.injEq] at present
      subst present
      rw [populated.noChange]
      exact Tracks.empty
  · intro id other member
    have old : .onChannel id other ∈ calls := by
      simpa [notOn id other] using member
    have bound := populated.made id other old
    rw [channels, List.length_append]
    exact Nat.lt_add_right _ bound

theorem createChannel (populated : Populated calls state) (name : Text) :
    Populated (calls ++ [.createChannel name])
      (state.createChannel name).2 := by
  cases found : state.channelsByName.lookup name with
  | none =>
      rw [IrcState.createChannel_free found]
      apply populated.make name (fun _ => rfl) (by simp) rfl
      intro other id registered
      rw [lookup_emplace] at registered
      split at registered
      · rename_i isNew
        exact Or.inr ⟨isNew.1, (Option.some.inj registered).symm⟩
      · exact Or.inl registered
  | some id =>
      rw [IrcState.createChannel_taken found]
      refine ⟨populated.registered, ?_, ?_⟩
      · intro other named present
        rw [filterMap_changeOn_concat other rfl]
        exact populated.tracks other named present
      · intro other call member
        exact populated.made other call (by simpa using member)

theorem onChannel (populated : Populated calls state) {id : ChannelId}
    {named : NamedChannel getId} (present : state.channels[id]? = some named)
    {call : MembershipCall User} {channel : Channel getId}
    (called : call.run getId named.channel = some channel) :
    Populated (calls ++ [.onChannel id call]) { state with
      channels := state.channels.set id ⟨named.name, channel⟩ } := by
  have bound := (List.getElem?_eq_some_iff.mp present).1
  refine ⟨?_, ?_, ?_⟩
  · intro name other found
    obtain ⟨old, isOld, sameName⟩ := populated.registered name other found
    by_cases same : other = id
    · subst same
      rw [present, Option.some.injEq] at isOld
      exact ⟨_, List.getElem?_set_self bound, isOld ▸ sameName⟩
    · exact ⟨old, by rw [List.getElem?_set_ne (Ne.symm same), isOld], sameName⟩
  · intro other updated found
    by_cases same : other = id
    · subst same
      rw [List.getElem?_set_self bound, Option.some.injEq] at found
      subst found
      have ran : EventRuns.run (MembershipCall.run getId) named.channel [call] =
          some channel := by
        rw [EventRuns.run, called]
        rfl
      have tracks := tracks_of_run (populated.tracks other named present) ran
      have change : (IrcCall.onChannel other call).changeOn getId other =
          call.change getId := if_pos rfl
      simpa [List.filterMap_cons, change] using tracks
    · rw [List.getElem?_set_ne (Ne.symm same)] at found
      have unchanged : (IrcCall.onChannel id call).changeOn getId other =
          none := by
        simp [IrcCall.changeOn, Ne.symm same]
      rw [filterMap_changeOn_concat other unchanged]
      exact populated.tracks other updated found
  · intro other earlier member
    rw [List.length_set]
    rcases List.mem_append.mp member with old | new
    · exact populated.made other earlier old
    · cases List.mem_singleton.mp new
      exact bound

theorem initial : Populated [] ({} : IrcState getId) where
  registered := by
    intro name id found
    cases found
  tracks := by
    intro id named present
    cases present
  made := by
    intro id call member
    cases member

theorem step (populated : Populated calls state) {call : IrcCall User}
    {next : IrcState getId} (stepped : state.step call = some next) :
    Populated (calls ++ [call]) next := by
  cases call with
  | createChannel name =>
      obtain rfl := Option.some.inj stepped
      exact populated.createChannel name
  | makeChannel name =>
      obtain rfl := Option.some.inj stepped
      exact populated.make name (fun _ => rfl) (by simp) rfl
        fun _ _ found => Or.inl found
  | onChannel id call =>
      simp only [IrcState.step] at stepped
      split at stepped
      · cases stepped
      · rename_i named present
        obtain ⟨channel, called, rfl⟩ := Option.map_eq_some_iff.mp stepped
        exact populated.onChannel present called

end Populated

/-! ## Runs -/

/-- The call that has returned the pointer is the last one or an earlier one. -/
theorem returned_concat {calls : List (IrcCall User)} {state : IrcState getId}
    (ran : ircRun {} calls = some state) (call : IrcCall User) (name : Text)
    (id : ChannelId) :
    Returned getId (calls ++ [call]) name id ↔
      Returned getId calls name id ∨
        call = .createChannel name ∧ (state.createChannel name).1 = .ok id := by
  constructor
  · rintro ⟨before, after, middle, split, reached, created⟩
    rcases List.eq_nil_or_concat after with rfl | ⟨after, last, rfl⟩
    · obtain ⟨rfl, same⟩ := List.append_inj' split rfl
      rw [ran, Option.some.injEq] at reached
      subst reached
      exact Or.inr ⟨List.singleton_inj.mp same, created⟩
    · have inner : calls ++ [call] =
          (before ++ .createChannel name :: after) ++ [last] := by
        simpa using split
      obtain ⟨rfl, _⟩ := List.append_inj' inner rfl
      exact Or.inl ⟨before, after, middle, rfl, reached, created⟩
  · rintro (⟨before, after, middle, rfl, reached, created⟩ | ⟨rfl, created⟩)
    · exact ⟨before, after ++ [call], middle, by simp, reached, created⟩
    · exact ⟨calls, [], state, rfl, ran, created⟩

/-- A name is in the table with what was returned for it. -/
def NamesReturned (calls : List (IrcCall User)) (state : IrcState getId) :
    Prop :=
  ∀ name id, state.channelsByName.lookup name = some id ↔
    Returned getId calls name id

theorem NamesReturned.step {calls : List (IrcCall User)}
    {state next : IrcState getId} {call : IrcCall User}
    (names : NamesReturned calls state) (ran : ircRun {} calls = some state)
    (stepped : state.step call = some next) :
    NamesReturned (calls ++ [call]) next := by
  intro name id
  rw [returned_concat ran, ← names]
  cases call with
  | createChannel other =>
      obtain rfl := Option.some.inj stepped
      cases found : state.channelsByName.lookup other with
      | none =>
          rw [IrcState.createChannel_free found, lookup_emplace]
          have absent := (lookup_eq_none_iff _ other).mp found
          by_cases same : name = other
          · subst same
            simp [absent, found, IrcState.createChannel_free found]
          · simp [same, Ne.symm same]
      | some taken =>
          rw [IrcState.createChannel_taken found]
          constructor
          · exact Or.inl
          · rintro (old | ⟨same, created⟩)
            · exact old
            · cases same
              rw [IrcState.createChannel_taken found] at created
              cases created
  | makeChannel other =>
      obtain rfl := Option.some.inj stepped
      simp
  | onChannel other call =>
      simp only [IrcState.step] at stepped
      split at stepped
      · cases stepped
      · obtain ⟨channel, _, rfl⟩ := Option.map_eq_some_iff.mp stepped
        simp

theorem namesReturned_initial : NamesReturned [] ({} : IrcState getId) := by
  intro name id
  constructor
  · intro found
    cases found
  · rintro ⟨before, after, _, split, _⟩
    simp at split

/-- Only `CreateChannel` adds a name to the table, and nothing removes one. -/
theorem mem_keys_step {state next : IrcState getId} {call : IrcCall User}
    (stepped : state.step call = some next) (name : Text) :
    name ∈ next.channelsByName.keys ↔
      name ∈ state.channelsByName.keys ∨ call = .createChannel name := by
  cases call with
  | createChannel other =>
      obtain rfl := Option.some.inj stepped
      rw [IrcCall.createChannel.injEq, @eq_comm _ other]
      cases found : state.channelsByName.lookup other with
      | none => rw [IrcState.createChannel_free found, mem_keys_emplace]
      | some taken =>
          rw [IrcState.createChannel_taken found]
          have present := mem_keys_of_lookup found
          constructor
          · exact Or.inl
          · rintro (old | rfl)
            · exact old
            · exact present
  | makeChannel other =>
      obtain rfl := Option.some.inj stepped
      simp
  | onChannel other call =>
      simp only [IrcState.step] at stepped
      split at stepped
      · cases stepped
      · obtain ⟨channel, _, rfl⟩ := Option.map_eq_some_iff.mp stepped
        simp

/-- The names in the table are those that `CreateChannel` was called with. -/
theorem mem_keys_of_run {calls : List (IrcCall User)}
    {state final : IrcState getId} (ran : ircRun state calls = some final)
    (name : Text) :
    name ∈ final.channelsByName.keys ↔
      name ∈ state.channelsByName.keys ∨ .createChannel name ∈ calls := by
  induction calls generalizing state with
  | nil =>
      obtain rfl := Option.some.inj ran
      simp
  | cons call calls ih =>
      obtain ⟨next, stepped, rest⟩ := EventRuns.run_cons ran
      rw [ih rest, mem_keys_step stepped, List.mem_cons, or_assoc,
        @eq_comm _ call]

/-- After any calls, an `IrcState` has for each name the one channel that
`CreateChannel` has ever returned for it, with its name and with the members
that were added to it and not removed again, whatever was done to the channels
of other names. -/
theorem ircState_keepsChannels (calls : List (IrcCall User))
    (state : IrcState getId) (ran : ircRun {} calls = some state) :
    KeepsChannels getId calls state := by
  have populated : Populated calls state :=
    @EventRuns.run_history _ _ _ Populated {}
      (fun _ _ _ _ _ populated stepped => populated.step stepped)
      Populated.initial _ _ ran
  have names : NamesReturned calls state :=
    @EventRuns.run_history _ _ _ NamesReturned {}
      (fun _ _ _ _ reached names stepped => names.step reached stepped)
      namesReturned_initial _ _ ran
  refine ⟨names, ?_, ?_⟩
  · intro name
    have none : name ∉ ({} : IrcState getId).channelsByName.keys := nofun
    have known := mem_keys_of_run ran name
    simp only [none, false_or] at known
    rw [← known, IrcState.createChannel_eq_error_iff]
  · intro name id found
    obtain ⟨named, present, sameName⟩ := populated.registered name id found
    exact ⟨named, present, sameName, populated.tracks id named present⟩

/-- Two names, and a user who joins a channel of each and leaves one. -/
def twoChannels : List (IrcCall UserId) :=
  [.createChannel (ascii "#a"), .makeChannel (ascii "#a"),
    .createChannel (ascii "#b"), .createChannel (ascii "#a"),
    .onChannel 0 (.administrativelyAddUser (some 7)),
    .onChannel 2 (.administrativelyAddUser (some 7)),
    .onChannel 2 (.administrativelyRemoveUser (some 7))]

theorem ircState_keepsChannels_twoChannels :
    ∃ state : IrcState (id : UserId → UserId),
      ircRun {} twoChannels = some state ∧
        KeepsChannels id twoChannels state :=
  ⟨_, rfl, ircState_keepsChannels twoChannels _ rfl⟩

end Birch
