import CoreBridge.Wire.Value

/-!
# The order of values

Every value has a rank, a list of integers, and values of one type are ordered
as their ranks are, lexicographically: numbers and times by value, text by its
bytes, false before true, absent before present, sequences and records item by
item, variants by position first. A map holds at most one entry per rank.

This is the order that a type has by its form, and keys that are ordered otherwise are
not modelled. Another order would only list the entries of an ordered map in another way.
Which entries a map holds does not depend on how they are listed, nor does what its readers
take or how many bytes it is written to (`MapLaw.order_free`, `MapLaw.read_agree`,
`Value.Rearranged`).
-/
namespace CoreBridge.Wire

mutual

/-- The list of integers that orders a value among those of its type. An item
of a sequence is announced by a one and the end by a zero, so a sequence comes
before its extensions. -/
def Value.rank : Value → List Int
  | .scalar k word => [k.toInt word]
  | .bool b => [if b then 1 else 0]
  | .text s => (Bytes.ofText s).map (fun byte => (byte.toNat : Int) + 1) ++ [0]
  | .duration span => [span.secs, span.nanos]
  | .timestamp t => [t.secs, t.nanos]
  | .absent => [0]
  | .present v => 1 :: v.rank
  | .seq vs => Value.ranks vs
  | .map _ es => Value.entryRanks es
  | .record vs => Value.fieldRanks vs
  | .variant i _ vs => (i : Int) :: Value.fieldRanks vs

def Value.ranks : List Value → List Int
  | [] => [0]
  | v :: vs => 1 :: (v.rank ++ Value.ranks vs)

def Value.entryRanks : List (Value × Value) → List Int
  | [] => [0]
  | (key, value) :: es => 1 :: (key.rank ++ value.rank ++ Value.entryRanks es)

def Value.fieldRanks : List Value → List Int
  | [] => []
  | v :: vs => v.rank ++ Value.fieldRanks vs

end

abbrev Entries := List (Value × Value)

namespace Entries

/-- Puts an entry at its place by ascending rank; an entry with the same rank is replaced. -/
def insertOrdered (rank : List Int) (key value : Value) : Entries → Entries
  | [] => [(key, value)]
  | (k, v) :: es =>
    match compare rank k.rank with
    | .lt => (key, value) :: (k, v) :: es
    | .eq => (key, value) :: es
    | .gt => (k, v) :: insertOrdered rank key value es

/-- Replaces the entry with the same rank where it stands, or appends. -/
def insertHashed (rank : List Int) (key value : Value) : Entries → Entries
  | [] => [(key, value)]
  | (k, v) :: es =>
    if rank = k.rank then (key, value) :: es else (k, v) :: insertHashed rank key value es

/-- Adds an entry to a map of the kind; the last value of a key wins. -/
def insert (kind : MapKind) (key value : Value) (es : Entries) : Entries :=
  match kind with
  | .ordered => insertOrdered key.rank key value es
  | .hashed => insertHashed key.rank key value es

/-- The map that results from adding the entries in order. -/
def ofList (kind : MapKind) (es : List (Value × Value)) : Entries :=
  es.foldl (fun map (key, value) => map.insert kind key value) []

/-- The entries by ascending key. -/
def sorted (es : Entries) : Entries := ofList .ordered es

end Entries

mutual

/-- Whether the value holds a hashed map of more than one entry, so that
the order of its entries on the wire is not determined. -/
def Value.hasFreeOrder : Value → Bool
  | .present v => v.hasFreeOrder
  | .seq vs | .record vs | .variant _ _ vs => Value.anyFreeOrder vs
  | .map kind es => (kind = .hashed ∧ 1 < es.length) || Value.anyFreeOrderEntry es
  | _ => false

def Value.anyFreeOrder : List Value → Bool
  | [] => false
  | v :: vs => v.hasFreeOrder || Value.anyFreeOrder vs

def Value.anyFreeOrderEntry : List (Value × Value) → Bool
  | [] => false
  | (key, value) :: es =>
    key.hasFreeOrder || value.hasFreeOrder || Value.anyFreeOrderEntry es

end
end CoreBridge.Wire
