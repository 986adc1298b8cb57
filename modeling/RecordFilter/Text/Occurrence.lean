import RecordFilter.Text.Blank
import RecordFilter.Text.Lowercase

/-!
# Occurrences of one text in another

`occursIn` tells whether a text stands somewhere inside another, `replaceAll` replaces the
occurrences that do not overlap from left to right, and `isFoundBy` is the search of listings: it
ignores case, and a blank search text finds everything.
-/
namespace RecordFilter.Text

/-- Whether `needle` stands somewhere in the list. -/
def occursIn (needle : List Char) : List Char → Bool
  | [] => needle.isEmpty
  | c :: cs => needle.isPrefixOf (c :: cs) || occursIn needle cs

theorem occursIn_iff (needle cs : List Char) : occursIn needle cs = true ↔ needle <:+: cs := by
  induction cs with
  | nil => simp [occursIn]
  | cons c cs ih => simp [occursIn, ih, List.infix_cons_iff]

/-- Replaces `old` by `new` in the list; `skip` characters belong to the occurrence just
replaced. -/
def replaceFrom (old new : List Char) (done : List Char) : Nat → List Char → List Char
  | _, [] => done.reverse
  | skip + 1, _ :: cs => replaceFrom old new done skip cs
  | 0, c :: cs =>
      if old.isPrefixOf (c :: cs) then
        replaceFrom old new (new.reverse ++ done) (old.length - 1) cs
      else replaceFrom old new (c :: done) 0 cs

/-- Replaces every occurrence of the nonempty `old` by `new`, from left to right. -/
def replaceAll (old new s : List Char) : List Char :=
  replaceFrom old new [] 0 s

/-- Whether `needle` occurs in `s` once both are lowered. -/
def contains (s needle : String) : Bool :=
  occursIn (lowercase needle).toList (lowercase s).toList

/-- Whether a search finds `s`: the search text is trimmed, and an absent or blank one finds all. -/
def isFoundBy (s : String) (search : Option String) : Bool :=
  match search.map trim with
  | none | some "" => true
  | some needle => contains s needle

end RecordFilter.Text
