import KeeperNetwork.Indexer.Store
import Mathlib.Data.List.Sort
import Mathlib.Data.Prod.Lex
import Mathlib.Data.String.Basic

/-! Fingerprints of ledgers, and how a ledger that is read again compares to its fingerprint. -/

namespace KeeperNetwork.Indexer

open Soroban

def digestOffset : Nat := 0xcbf29ce484222325

def digestPrime : Nat := 0x00000100000001b3

def foldBytes (digest : Nat) (bytes : Bytes) : Nat :=
  bytes.foldl (fun hash byte => (hash ^^^ byte.toNat) * digestPrime % 2 ^ 64) digest

def textBytes (text : String) : Bytes := text.toList.flatMap String.utf8EncodeChar

/-- The bytes of a number, highest first. -/
def bigEndian (width value : Nat) : Bytes :=
  (List.range width).reverse.map fun position => UInt8.ofNat (value / 256 ^ position % 256)

@[simp] theorem bigEndian_length (width value : Nat) : (bigEndian width value).length = width := by
  simp [bigEndian]

theorem bigEndian_succ (width value : Nat) : bigEndian (width + 1) value =
    UInt8.ofNat (value / 256 ^ width % 256) :: bigEndian width value := by
  simp [bigEndian, List.range_succ]

/-- The bytes of a number determine it up to their bound. -/
theorem mod_of_bigEndian {width value other : Nat}
    (same : bigEndian width value = bigEndian width other) :
    value % 256 ^ width = other % 256 ^ width := by
  induction width with
  | zero => simp [Nat.mod_one]
  | succ width ih =>
    rw [bigEndian_succ, bigEndian_succ, List.cons.injEq] at same
    -- The first byte is the digit that the wider remainder adds.
    have digit := congrArg UInt8.toNat same.1
    simp only [UInt8.toNat_ofNat', Nat.mod_mod] at digit
    rw [pow_succ, Nat.mod_mul, Nat.mod_mul, ih same.2, digit]

/-- The encoding of a payload's values, which a serializer may refuse. -/
abbrev Serializer := List RawValue → Option Bytes

def foldEvent (json : Serializer) (digest : Nat) (event : RawEvent) : Nat :=
  let digest := foldBytes digest (textBytes event.txHash)
  let digest := foldBytes digest (bigEndian 4 event.eventIndex)
  let digest := foldBytes digest (bigEndian 8 (event.ledgerCloseTime % 2 ^ 64).toNat)
  let digest := event.topics.foldl (fun digest topic => foldBytes digest (textBytes topic)) digest
  match json event.values with
  | some encoded => foldBytes digest encoded
  | none => digest

/-- The canonical order of the events of a ledger. -/
def RawEvent.le (left right : RawEvent) : Prop := toLex left.key ≤ toLex right.key

instance : DecidableRel RawEvent.le := fun left right =>
  inferInstanceAs (Decidable (toLex left.key ≤ toLex right.key))

def inLedger (ledger : Nat) (events : List RawEvent) : List RawEvent :=
  (events.filter fun event => event.ledger = ledger).insertionSort RawEvent.le

def fingerprint (json : Serializer) (ledger : Nat) (events : List RawEvent) : LedgerFingerprint :=
  let events := inLedger ledger events
  { ledger
    eventCount := events.length % 2 ^ 32
    digest := events.foldl (foldEvent json) digestOffset }

section Order

variable {json : Serializer} {ledger : Nat} {left right : List RawEvent}

instance : Std.Total RawEvent.le := ⟨fun left right => le_total (toLex left.key) (toLex right.key)⟩

instance : IsTrans RawEvent RawEvent.le :=
  ⟨fun left middle right => @le_trans _ _ (toLex left.key) (toLex middle.key) (toLex right.key)⟩

theorem inLedger_perm (same : (left.filter fun event => event.ledger = ledger).Perm
      (right.filter fun event => event.ledger = ledger))
    (distinct : ((left.filter fun event => event.ledger = ledger).map RawEvent.key).Nodup) :
    inLedger ledger left = inLedger ledger right := by
  have sorted : (inLedger ledger left).Perm (inLedger ledger right) :=
    (List.perm_insertionSort _ _).trans (same.trans (List.perm_insertionSort _ _).symm)
  refine List.Perm.eq_of_pairwise ?_ (List.pairwise_insertionSort _ _)
    (List.pairwise_insertionSort _ _) sorted
  -- Events that are ordered both ways have the same key, so they are the same event.
  intro event other member member' before behind
  exact List.inj_on_of_nodup_map distinct ((List.mem_insertionSort _).mp member)
    ((List.mem_insertionSort _).mp (sorted.mem_iff.mpr member'))
    (toLex.injective (le_antisymm before behind))

theorem fingerprint_perm (same : left.Perm right) (distinct : (left.map RawEvent.key).Nodup) :
    fingerprint json ledger left = fingerprint json ledger right := by
  rw [fingerprint, fingerprint, inLedger_perm (same.filter _)
    (distinct.sublist (List.filter_sublist.map _))]

end Order

/-- Which way two views of a ledger differ. -/
inductive DiscrepancyKind where
  | eventsDisappeared
  | eventsAppeared
  | contentChanged
  deriving DecidableEq, Repr

/-- A ledger the source has reported two different ways. -/
structure Discrepancy where
  ledger : Nat
  recorded : LedgerFingerprint
  observed : LedgerFingerprint
  kind : DiscrepancyKind
  deriving DecidableEq, Repr

/-- The way in which two event counts differ. -/
def discrepancyKind (observed recorded : Nat) : DiscrepancyKind :=
  match compare observed recorded with
  | .lt => .eventsDisappeared
  | .gt => .eventsAppeared
  | .eq => .contentChanged

/-- How an observed ledger compares to what was recorded for it. -/
inductive Observation where
  | firstSight (observed : LedgerFingerprint)
  | consistent (observed : LedgerFingerprint)
  | discrepant (discrepancy : Discrepancy)
  deriving DecidableEq, Repr

def compareWith (recorded observed : LedgerFingerprint) : Observation :=
  if recorded = observed then .consistent observed
  else .discrepant
    { ledger := observed.ledger
      recorded
      observed
      kind := discrepancyKind observed.eventCount recorded.eventCount }

end KeeperNetwork.Indexer
