import RecordFilter.Metadata.Cache

/-!
# Turns of a fetch

A fetch takes the answers to its requests one by one. What it does with an answer follows from the
batches before it: it takes the batch and asks for the next page, or it ends. A fetch is complete
when batches that advance are followed by one that is not full; it has then fetched the union.
-/
namespace RecordFilter

/-- Whether each item of a list is in the relation with the items before it. -/
def EachAfter {α : Type} (r : List α → α → Prop) (items : List α) : Prop :=
  ∀ before item after, items = before ++ item :: after → r before item

/-- The page that `n` pages stand before. -/
def Page.nth (size : UInt32) (n : Nat) : Page := ⟨UInt32.ofNat (n + 1), size⟩

/-- The answer of a provider to request `n` of a fetch, which comes after `earlier` other requests
and is for page `n` of a listing without search. -/
def PropertyProvider.nth (provider : PropertyProvider) (rt : RecordType) (size : UInt32)
    (earlier n : Nat) : Except ProviderError Properties :=
  provider.answer (earlier + n) rt (Page.nth size n) none

namespace Fetch

/-- All entries of the batches, the first standing first, as one map. -/
def union (batches : List Properties) : Properties :=
  .ofList (batches.flatMap (·.entries))

/-- A batch that a fetch goes on after: a full page with a key that the batches before lack. -/
structure Advances (size : UInt32) (before : List Properties) (batch : Properties) : Prop where
  full : size.toNat ≤ batch.size
  news : ∃ key ∈ batch.keys, ∀ b ∈ before, key ∉ b.keys

/-- The batches of a complete fetch: `last` is not full, and those before it advance. -/
structure Complete (size : UInt32) (batches : List Properties) (last : Properties) : Prop where
  advance : EachAfter (Advances size) batches
  withinLimit : batches.length < MetadataCache.maxPages
  short : last.size < size.toNat

/-- What becomes of a fetch with an answer: it takes a batch, or it ends. -/
inductive Turn where
  | takes (batch : Properties)
  | ends (result : Except ProviderError Properties)

/-- The turn of a fetch that has taken the batches. -/
def turn (size : UInt32) (batches : List Properties) : Except ProviderError Properties → Turn
  | .error e => .ends (.error e)
  | .ok batch =>
      let page := Page.nth size batches.length
      if page.isLast batch.size then .ends (.ok (union (batches ++ [batch])))
      else if batch.keys.all fun key => batches.any fun b => key ∈ b.keys then
        .ends (stalled page "full page added no new properties")
      else if page.number.toNat < MetadataCache.maxPages then .takes batch
      else .ends (stalled page ("reached the " ++ MetadataCache.maxPages.repr ++ " page limit"))

end Fetch
end RecordFilter
