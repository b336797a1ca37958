import Birch.ChangeHistory
import Birch.EventRuns
import Mathlib.Data.List.Perm.Basic

/-!
# The members of a channel

A channel keeps its members by their ids.  `ListMembers` makes a vector of as
many entries as there are members and appends the members to it, so that the
null entries the vector was made with stay in front.
-/

namespace Birch

open ChangeHistory LinkedHashMap

abbrev UserId := UInt64

/-- A hash map is iterated over in some order. -/
structure Iteration {Key Value : Type*} (map : LinkedHashMap Key Value) where
  order : List (Key × Value)
  visits : order.Perm map.entries

variable {User : Type*} (getId : User → UserId)

/-- Each member is under its own id. -/
structure Channel where
  members : LinkedHashMap UserId User
  underId : ∀ entry ∈ members.entries, getId entry.2 = entry.1

namespace Channel

def create : Channel getId :=
  ⟨∅, fun _ member => nomatch member⟩

variable {getId}

/-- The vector is constructed with a null pointer for each member. -/
def listMembers (channel : Channel getId)
    (iteration : Iteration channel.members) : List (Option User) :=
  iteration.order.foldl (fun result entry => result ++ [some entry.2])
    (List.replicate channel.members.entries.length none)

/-- `CHECK(user != nullptr)` ends the program for a null pointer. -/
def administrativelyAddUser (channel : Channel getId) :
    Option User → Option (Channel getId)
  | none => none
  | some user => some
      { members := channel.members.emplace (getId user) user
        underId := by
          intro entry member
          rcases mem_emplace member with rfl | old
          · rfl
          · exact channel.underId entry old }

def administrativelyRemoveUser (channel : Channel getId) :
    Option User → Option (Channel getId)
  | none => none
  | some user => some
      { members := channel.members.erase (getId user)
        underId := by
          intro entry member
          rw [entries_erase] at member
          exact channel.underId entry (List.mem_filter.mp member).1 }

end Channel

inductive MembershipCall (User : Type*)
  | administrativelyAddUser (user : Option User)
  | administrativelyRemoveUser (user : Option User)
  deriving DecidableEq

namespace MembershipCall

def run (channel : Channel getId) : MembershipCall User → Option (Channel getId)
  | administrativelyAddUser user => channel.administrativelyAddUser user
  | administrativelyRemoveUser user => channel.administrativelyRemoveUser user

/-- What the call is to do to the set of ids. -/
def change : MembershipCall User → Option (Change UserId)
  | administrativelyAddUser user => user.map fun user => .add (getId user)
  | administrativelyRemoveUser user =>
      user.map fun user => .remove (· = getId user)

end MembershipCall

/-- The ids that were added and not removed since. -/
def memberIds (calls : List (MembershipCall User)) : List UserId :=
  remaining (calls.filterMap (MembershipCall.change getId))

/-- No entry is null, and there is one user for each of the ids and no other. -/
structure ListsMembers (ids : List UserId) (result : List (Option User)) :
    Prop where
  noNull : none ∉ result
  once : ∀ id, result.countP (fun user => user.map getId = some id) =
    if id ∈ ids then 1 else 0

variable {getId}

theorem tracks_of_run {channel final : Channel getId}
    {calls : List (MembershipCall User)} {history : List (Change UserId)}
    (tracks : Tracks channel.members history)
    (ran : EventRuns.run (MembershipCall.run getId) channel calls =
      some final) :
    Tracks final.members
      (history ++ calls.filterMap (MembershipCall.change getId)) := by
  induction calls generalizing channel history with
  | nil =>
      rw [EventRuns.run, Option.some.injEq] at ran
      rw [List.filterMap_nil, List.append_nil, ← ran]
      exact tracks
  | cons call calls ih =>
      obtain ⟨next, called, rest⟩ := EventRuns.run_cons ran
      cases call with
      | administrativelyAddUser user =>
          cases user with
          | none => cases called
          | some user =>
              cases called
              have later := ih (tracks.emplace (getId user) user) rest
              rwa [List.append_assoc] at later
      | administrativelyRemoveUser user =>
          cases user with
          | none => cases called
          | some user =>
              cases called
              have later := ih (tracks.erase (getId user)) rest
              rwa [List.append_assoc] at later

namespace Channel

variable (channel : Channel getId) (iteration : Iteration channel.members)

theorem listMembers_eq :
    channel.listMembers iteration =
      List.replicate channel.members.entries.length none ++
        iteration.order.map fun entry => some entry.2 := by
  unfold listMembers
  generalize List.replicate channel.members.entries.length none = start
  induction iteration.order generalizing start with
  | nil => simp
  | cons entry order ih => simp [ih]

/-- Behind the null entries, the listing is right. -/
theorem listsMembers_pushed {history : List (Change UserId)}
    (tracks : Tracks channel.members history) :
    ListsMembers getId (remaining history)
      (iteration.order.map fun entry => some entry.2) := by
  constructor
  · simp
  · intro id
    have sameCount : (iteration.order.map fun entry => some entry.2).countP
        (fun user => user.map getId = some id) =
          channel.members.keys.count id := by
      rw [List.countP_map, iteration.visits.countP_eq, keys, List.count,
        List.countP_map]
      apply List.countP_congr
      intro entry member
      simp [channel.underId entry member]
    have nodup : channel.members.keys.Nodup := channel.members.nodupKeys
    rw [sameCount, nodup.count]
    exact if_congr (tracks id) rfl rfl

end Channel

/-- The listing is right exactly of a channel that has no members. -/
theorem listsMembers_iff_noMembers {channel : Channel getId}
    {calls : List (MembershipCall User)}
    (ran : EventRuns.run (MembershipCall.run getId) (Channel.create getId)
      calls = some channel)
    (iteration : Iteration channel.members) :
    ListsMembers getId (memberIds getId calls)
        (channel.listMembers iteration) ↔
      memberIds getId calls = [] := by
  have tracks : Tracks channel.members
      (calls.filterMap (MembershipCall.change getId)) :=
    tracks_of_run Tracks.empty ran
  have sameLength : channel.members.entries.length =
      (memberIds getId calls).dedup.length := tracks.length_entries
  rw [channel.listMembers_eq]
  constructor
  · intro lists
    by_contra members
    have someMember : channel.members.entries.length ≠ 0 := by
      rw [sameLength]
      intro zero
      exact members ((List.dedup_eq_nil _).mp (List.length_eq_zero_iff.mp zero))
    apply lists.noNull
    exact List.mem_append_left _ (List.mem_replicate.mpr ⟨someMember, rfl⟩)
  · intro noMembers
    rw [noMembers] at sameLength
    rw [sameLength]
    exact channel.listsMembers_pushed iteration tracks

/-- A user who was added and removed again. -/
theorem listsMembers_afterRemoval :
    ListsMembers id
      (memberIds id
        [.administrativelyAddUser (some (7 : UserId)),
          .administrativelyRemoveUser (some 7)])
      ((Channel.create id).listMembers ⟨[], List.Perm.refl _⟩) :=
  (listsMembers_iff_noMembers (by rfl) ⟨[], List.Perm.refl _⟩).mpr (by decide)

/-- The only member of a channel is listed behind a null pointer. -/
theorem onlyMember_behindNull :
    ∃ channel : Channel (id : UserId → UserId),
      EventRuns.run (MembershipCall.run id) (Channel.create id)
          [.administrativelyAddUser (some 7)] = some channel ∧
        ∀ iteration : Iteration channel.members,
          channel.listMembers iteration = [none, some 7] ∧
            ¬ ListsMembers id
              (memberIds id [.administrativelyAddUser (some 7)])
              (channel.listMembers iteration) := by
  refine ⟨_, rfl, ?_⟩
  intro iteration
  have order : iteration.order = [(7, 7)] :=
    List.perm_singleton.mp iteration.visits
  have listed : Channel.listMembers _ iteration = [none, some 7] := by
    rw [Channel.listMembers_eq, order]
    rfl
  refine ⟨listed, ?_⟩
  rw [listed]
  intro lists
  exact lists.noNull List.mem_cons_self

end Birch
