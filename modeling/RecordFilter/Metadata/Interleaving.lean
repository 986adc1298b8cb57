import RecordFilter.Metadata.Turn

/-!
# Refreshes side by side

Any number of refreshes may go on over one cache. Each of them fetches pages one by one, and with a
single further action it publishes what it has fetched. The actions of different refreshes come in
any order, and a request may be answered in any way.
-/
namespace RecordFilter

/-- How far a refresh has come: it has taken batches, it has fetched properties, it has failed, or
it has published some number of properties. -/
inductive Stage where
  | fetching (batches : List Properties)
  | fetched (properties : Properties)
  | failed (e : ProviderError)
  | published (count : Nat)

/-- The stage after an answer to a refresh that has taken batches. -/
def Stage.next (size : UInt32) (batches : List Properties)
    (answer : Except ProviderError Properties) : Stage :=
  match Fetch.turn size batches answer with
  | .takes batch => fetching (batches ++ [batch])
  | .ends (.ok properties) => fetched properties
  | .ends (.error e) => failed e

/-- A refresh of a record type. -/
structure Task where
  recordType : RecordType
  stage : Stage

/-- A cache and the refreshes over it, in the order in which they started. -/
structure Interleaving where
  cache : MetadataCache
  tasks : List Task

/-- What may happen: a refresh starts, the request of a refresh is answered, or a refresh of a
record type publishes. -/
inductive Action where
  | start (rt : RecordType)
  | answer (task : Nat) (given : Except ProviderError Properties)
  | publish (task : Nat) (rt : RecordType)

namespace Interleaving

/-- One action. Only publishing changes the catalog, and it does so at once. -/
inductive Step : Interleaving → Action → Interleaving → Prop where
  | start (s : Interleaving) (rt : RecordType) :
      Step s (.start rt) { s with tasks := s.tasks ++ [⟨rt, .fetching []⟩] }
  | answer (s : Interleaving) (given : Except ProviderError Properties) {task : Nat}
      {rt : RecordType} {batches : List Properties}
      (under_way : s.tasks[task]? = some ⟨rt, .fetching batches⟩) :
      Step s (.answer task given)
        { s with tasks := s.tasks.set task ⟨rt, .next s.cache.pageSize batches given⟩ }
  | publish (s : Interleaving) {task : Nat} {rt : RecordType} {properties : Properties}
      (ready : s.tasks[task]? = some ⟨rt, .fetched properties⟩) :
      Step s (.publish task rt)
        ⟨s.cache.publish rt properties, s.tasks.set task ⟨rt, .published properties.size⟩⟩

/-- The states that actions lead to from a cache over which no refresh is under way. -/
inductive Run (c : MetadataCache) : List Action → Interleaving → Prop where
  | nil : Run c [] ⟨c, []⟩
  | step {actions : List Action} {s s' : Interleaving} {action : Action} (run : Run c actions s)
      (step : Step s action s') : Run c (actions ++ [action]) s'

end Interleaving

/-- The stage of a refresh that is over. -/
def Stage.ofResult : Except ProviderError Nat → Stage
  | .ok count => published count
  | .error e => failed e

/-- The answers of the provider to the first requests of a refresh, as actions of the refresh that
started first. -/
def MetadataCache.answers (c : MetadataCache) (rt : RecordType) (requests : Nat) : List Action :=
  (List.range requests).map fun n => .answer 0 (c.provider.nth rt c.pageSize c.requests n)

/-- The actions of a refresh that goes on alone: it publishes if it succeeds. -/
def MetadataCache.actionsOf (c : MetadataCache) (rt : RecordType) (requests : Nat) : List Action :=
  let publishes := match (c.refresh rt).result with
    | .ok _ => [.publish 0 rt]
    | .error _ => []
  .start rt :: c.answers rt requests ++ publishes

/-- The answers to the requests of a refresh, in order. -/
def answersTo (task : Nat) (actions : List Action) : List (Except ProviderError Properties) :=
  actions.filterMap fun
    | .answer other given => if other = task then some given else none
    | _ => none

/-- Whether the last refresh of the record type that published is `task`, after the actions
`before`. -/
def PublishedLast (rt : RecordType) (task : Nat) (before actions : List Action) : Prop :=
  ∃ after, actions = before ++ .publish task rt :: after ∧ ∀ other, .publish other rt ∉ after

end RecordFilter
