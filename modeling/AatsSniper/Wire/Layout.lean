/-
# The layout of a transaction

`parse_transaction` skips or converts most of what it reads: the signature slots, two
header bytes, the length prefixes, the lookups of a v0 message and whatever comes
after the message.  `WireTx` keeps all of it.  `readWire` is the same walk over the
bytes, and `parseTransaction` is what it returns, converted
(`parseTransaction_eq_readWire`).

A layout that is `Valid` is one that can be read, and `readWire` inverts writing it
(`readWire_eq_ok_iff`): the accepted byte strings and the valid layouts are in
bijection.
-/

import AatsSniper.Lib.Codec
import AatsSniper.Lib.Varint
import AatsSniper.Wire.Transaction

namespace AatsSniper
namespace Wire

open Varint (Spells)

/-! ### Length prefixes -/

/-- The high bit of a byte, and the seven bits below it. -/
theorem byte_bits : ∀ n < 256, (n &&& 0x80 = 0 ↔ n < 128) ∧ n &&& 0x7F = n % 128 := by
  decide +kernel

/-- Seven bits more. -/
theorem or_shiftLeft_add {low high value shift : ℕ} (h : low < 128) :
    value ||| low <<< shift ||| high <<< (shift + 7) = value ||| (low + 128 * high) <<< shift := by
  have hsplit : low + 128 * high = low ||| high <<< 7 := by
    have hadd := Nat.shiftLeft_add_eq_or_of_lt (i := 7) h high
    rw [Nat.or_comm, ← hadd, Nat.shiftLeft_eq]
    omega
  rw [hsplit, Nat.shiftLeft_or_distrib, Nat.or_assoc, ← Nat.shiftLeft_add, Nat.add_comm 7 shift]

theorem readCompactU16Loop_eq_ok_iff {fuel value shift n : ℕ} {buf rest : Bytes} :
    readCompactU16Loop fuel value shift buf = .ok (n, rest) ↔
      ∃ pre m, buf = pre ++ rest ∧ Spells pre m ∧ pre.length ≤ fuel ∧
        n = value ||| m <<< shift := by
  induction fuel generalizing value shift buf with
  | zero =>
      refine ⟨fun h => (by cases h), ?_⟩
      rintro ⟨pre, m, -, hspells, hlength, -⟩
      exact absurd (List.length_eq_zero_iff.1 (Nat.le_zero.1 hlength)) hspells.ne_nil
  | succ fuel ih =>
      cases buf with
      | nil =>
          refine ⟨fun h => (by cases h), ?_⟩
          rintro ⟨pre, m, hnil, hspells, -, -⟩
          exact absurd (List.append_eq_nil_iff.1 hnil.symm).1 hspells.ne_nil
      | cons b buf =>
          obtain ⟨hhigh, hlow⟩ := byte_bits b.toNat b.toNat_lt
          rw [readCompactU16Loop, hlow]
          split_ifs with hlast
          · have hb := hhigh.1 hlast
            rw [Nat.mod_eq_of_lt hb]
            constructor
            · intro h
              obtain ⟨rfl, rfl⟩ := Prod.mk.inj (Except.ok.inj h)
              exact ⟨[b], b.toNat, rfl, .last b hb, Nat.succ_le_succ (Nat.zero_le _), rfl⟩
            · rintro ⟨pre, m, heq, hspells, -, rfl⟩
              obtain ⟨-, rfl, rfl⟩ := Spells.append_inj (.last b hb) hspells heq
              rfl
          · have hb : 128 ≤ b.toNat := not_lt.1 fun hlt => hlast (hhigh.2 hlt)
            have hbits : b.toNat % 128 = b.toNat - 128 := by
              have := b.toNat_lt
              omega
            rw [ih, hbits]
            constructor
            · rintro ⟨pre, m, rfl, hspells, hlength, rfl⟩
              refine ⟨b :: pre, _, rfl, .more b hb hspells, Nat.succ_le_succ hlength, ?_⟩
              exact or_shiftLeft_add (by have := b.toNat_lt; omega)
            · rintro ⟨pre, m, heq, hspells, hlength, rfl⟩
              cases hspells with
              | last b' hb' =>
                  obtain ⟨rfl, -⟩ := List.cons.inj heq
                  omega
              | more b' hb' hpre =>
                  obtain ⟨rfl, rfl⟩ := List.cons.inj heq
                  refine ⟨_, _, rfl, hpre, Nat.le_of_succ_le_succ hlength, ?_⟩
                  exact (or_shiftLeft_add (by have := b.toNat_lt; omega)).symm

/-- **What a length prefix says.** -/
theorem readCompactU16_eq_ok_iff {n : ℕ} {buf rest : Bytes} :
    readCompactU16 buf = .ok (n, rest) ↔
      ∃ pre, buf = pre ++ rest ∧ Spells pre n ∧ pre.length ≤ 3 := by
  unfold readCompactU16
  rw [readCompactU16Loop_eq_ok_iff]
  simp only [Nat.shiftLeft_zero, Nat.zero_or]
  constructor
  · rintro ⟨pre, m, hbuf, hspells, hlength, rfl⟩
    exact ⟨pre, hbuf, hspells, hlength⟩
  · rintro ⟨pre, hbuf, hspells, hlength⟩
    exact ⟨pre, n, hbuf, hspells, hlength, rfl⟩

/-- A length prefix as it stands. -/
structure Length where
  bytes : Bytes
  count : ℕ
  deriving DecidableEq

/-- The prefix is read as its count. -/
def Length.Valid (l : Length) : Prop := Spells l.bytes l.count ∧ l.bytes.length ≤ 3

/-- Reading a length prefix. -/
def readLength : Reader String Length := fun buf => do
  let (count, rest) ← readCompactU16 buf
  return (⟨buf.take (buf.length - rest.length), count⟩, rest)

theorem readLength_inverts : Inverts readLength Length.bytes Length.Valid := by
  refine ⟨fun {buf rest l} h => ?_, fun {l} hvalid rest => ?_⟩
  · obtain ⟨⟨count, rest'⟩, hread, h⟩ := ok_of_bind h
    obtain ⟨rfl, rfl⟩ := Prod.mk.inj (Except.ok.inj h)
    obtain ⟨pre, rfl, hspells, hlength⟩ := readCompactU16_eq_ok_iff.1 hread
    have htake : (pre ++ rest').take ((pre ++ rest').length - rest'.length) = pre := by simp
    exact ⟨⟨by rwa [htake], by rwa [htake]⟩, by rw [htake]⟩
  · have hread : readCompactU16 (l.bytes ++ rest) = .ok (l.count, rest) :=
      readCompactU16_eq_ok_iff.2 ⟨l.bytes, rfl, hvalid.1, hvalid.2⟩
    unfold readLength
    rw [bind_of_ok hread]
    have htake : (l.bytes ++ rest).take ((l.bytes ++ rest).length - rest.length) = l.bytes := by
      simp
    dsimp only
    rw [htake]
    rfl

theorem takeExact_inverts (n : ℕ) (message : String) :
    Inverts (takeExact n message) (fun bytes => bytes) (fun bytes => bytes.length = n) := by
  refine ⟨fun {buf rest bytes} h => ?_, fun {bytes} hlength rest => ?_⟩
  · unfold takeExact at h
    split_ifs at h with hshort
    obtain ⟨rfl, rfl⟩ := Prod.mk.inj (Except.ok.inj h)
    exact ⟨List.length_take_of_le (not_lt.1 hshort), (List.take_append_drop n buf).symm⟩
  · subst hlength
    unfold takeExact
    rw [if_neg (by simp)]
    simp

/-! ### Instructions and lookups -/

/-- A length prefix and as many bytes. -/
structure Counted where
  length : Length
  bytes : Bytes
  deriving DecidableEq

namespace Counted

/-- The bytes of the transaction. -/
def write (c : Counted) : Bytes := c.length.bytes ++ c.bytes

/-- It can be read, `size` bytes for each counted. -/
def Valid (size : ℕ) (c : Counted) : Prop :=
  c.length.Valid ∧ c.bytes.length = c.length.count * size

end Counted

/-- Reading a length prefix and `size` bytes for each counted. -/
def readCounted (size : ℕ) (message : String) : Reader String Counted := fun buf => do
  let (length, buf) ← readLength buf
  let (bytes, buf) ← takeExact (length.count * size) message buf
  return (⟨length, bytes⟩, buf)

theorem readCounted_inverts (size : ℕ) (message : String) :
    Inverts (readCounted size message) Counted.write (Counted.Valid size) := by
  refine ⟨fun {buf rest c} h => ?_, fun {c} hvalid rest => ?_⟩
  · obtain ⟨⟨length, buf'⟩, hlength, h⟩ := ok_of_bind h
    obtain ⟨⟨bytes, buf''⟩, hbytes, h⟩ := ok_of_bind h
    obtain ⟨rfl, rfl⟩ := Prod.mk.inj (Except.ok.inj h)
    obtain ⟨hvalid, rfl⟩ := readLength_inverts.sound hlength
    obtain ⟨hcount, rfl⟩ := (takeExact_inverts _ _).sound hbytes
    exact ⟨⟨hvalid, hcount⟩, (List.append_assoc _ _ _).symm⟩
  · unfold readCounted Counted.write
    rw [List.append_assoc, bind_of_ok (readLength_inverts.complete hvalid.1 _)]
    exact bind_of_ok ((takeExact_inverts _ _).complete hvalid.2 rest)

/-- An instruction: the index of its program, its account indices and its data. -/
structure WireInstruction where
  programIdIndex : Bytes
  accounts : Counted
  data : Counted
  deriving DecidableEq

namespace WireInstruction

/-- The bytes of the transaction. -/
def write (ix : WireInstruction) : Bytes := ix.programIdIndex ++ ix.accounts.write ++ ix.data.write

/-- It can be read. -/
def Valid (ix : WireInstruction) : Prop :=
  ix.programIdIndex.length = 1 ∧ ix.accounts.Valid 1 ∧ ix.data.Valid 1

/-- What `parse_transaction` makes of it. -/
def parsed (keys : List String) (ix : WireInstruction) : ParsedInstruction where
  programId := resolveStatic keys (ix.programIdIndex.headD 0).toNat
  programIdIndex := (ix.programIdIndex.headD 0).toNat
  accountIndices := ix.accounts.bytes.map UInt8.toNat
  data := ix.data.bytes

end WireInstruction

/-- Reading an instruction. -/
def readWireInstruction : Reader String WireInstruction := fun buf => do
  let (index, buf) ← takeExact 1 "truncated transaction: instruction program_id_index" buf
  let (accounts, buf) ← readCounted 1 "truncated transaction: instruction accounts" buf
  let (data, buf) ← readCounted 1 "truncated transaction: instruction data" buf
  return (⟨index, accounts, data⟩, buf)

theorem readWireInstruction_inverts :
    Inverts readWireInstruction WireInstruction.write WireInstruction.Valid := by
  refine ⟨fun {buf rest ix} h => ?_, fun {ix} hvalid rest => ?_⟩
  · obtain ⟨⟨index, buf₁⟩, hindex, h⟩ := ok_of_bind h
    obtain ⟨⟨accounts, buf₂⟩, haccounts, h⟩ := ok_of_bind h
    obtain ⟨⟨data, buf₃⟩, hdata, h⟩ := ok_of_bind h
    obtain ⟨rfl, rfl⟩ := Prod.mk.inj (Except.ok.inj h)
    obtain ⟨hone, rfl⟩ := (takeExact_inverts _ _).sound hindex
    obtain ⟨haccounts', rfl⟩ := (readCounted_inverts _ _).sound haccounts
    obtain ⟨hdata', rfl⟩ := (readCounted_inverts _ _).sound hdata
    exact ⟨⟨hone, haccounts', hdata'⟩, by simp [WireInstruction.write]⟩
  · obtain ⟨hone, haccounts, hdata⟩ := hvalid
    unfold readWireInstruction WireInstruction.write
    rw [List.append_assoc, List.append_assoc]
    refine (bind_of_ok ((takeExact_inverts _ _).complete hone _)).trans ?_
    refine (bind_of_ok ((readCounted_inverts _ _).complete haccounts _)).trans ?_
    exact bind_of_ok ((readCounted_inverts _ _).complete hdata rest)

/-- An address-table lookup. -/
structure WireLookup where
  account : Bytes
  writable : Counted
  readonly : Counted
  deriving DecidableEq

namespace WireLookup

/-- The bytes of the transaction. -/
def write (l : WireLookup) : Bytes := l.account ++ l.writable.write ++ l.readonly.write

/-- It can be read. -/
def Valid (l : WireLookup) : Prop :=
  l.account.length = 32 ∧ l.writable.Valid 1 ∧ l.readonly.Valid 1

end WireLookup

/-- Reading a lookup. -/
def readWireLookup : Reader String WireLookup := fun buf => do
  let (account, buf) ← takeExact 32 "truncated transaction: ALT lookup account" buf
  let (writable, buf) ← readCounted 1 "truncated transaction: ALT writable indexes" buf
  let (readonly, buf) ← readCounted 1 "truncated transaction: ALT readonly indexes" buf
  return (⟨account, writable, readonly⟩, buf)

theorem readWireLookup_inverts : Inverts readWireLookup WireLookup.write WireLookup.Valid := by
  refine ⟨fun {buf rest l} h => ?_, fun {l} hvalid rest => ?_⟩
  · obtain ⟨⟨account, buf₁⟩, haccount, h⟩ := ok_of_bind h
    obtain ⟨⟨writable, buf₂⟩, hwritable, h⟩ := ok_of_bind h
    obtain ⟨⟨readonly, buf₃⟩, hreadonly, h⟩ := ok_of_bind h
    obtain ⟨rfl, rfl⟩ := Prod.mk.inj (Except.ok.inj h)
    obtain ⟨haccount', rfl⟩ := (takeExact_inverts _ _).sound haccount
    obtain ⟨hwritable', rfl⟩ := (readCounted_inverts _ _).sound hwritable
    obtain ⟨hreadonly', rfl⟩ := (readCounted_inverts _ _).sound hreadonly
    exact ⟨⟨haccount', hwritable', hreadonly'⟩, by simp [WireLookup.write]⟩
  · obtain ⟨haccount, hwritable, hreadonly⟩ := hvalid
    unfold readWireLookup WireLookup.write
    rw [List.append_assoc, List.append_assoc]
    refine (bind_of_ok ((takeExact_inverts _ _).complete haccount _)).trans ?_
    refine (bind_of_ok ((readCounted_inverts _ _).complete hwritable _)).trans ?_
    exact bind_of_ok ((readCounted_inverts _ _).complete hreadonly rest)

/-! ### The whole transaction -/

/-- A length prefix and as many items. -/
structure Items (α : Type) where
  length : Length
  items : List α
  deriving DecidableEq

namespace Items

variable {α : Type}

/-- The bytes of the transaction. -/
def write (write : α → Bytes) (a : Items α) : Bytes := a.length.bytes ++ a.items.flatMap write

/-- It can be read. -/
def Valid (ok : α → Prop) (a : Items α) : Prop :=
  a.length.Valid ∧ a.items.length = a.length.count ∧ ∀ item ∈ a.items, ok item

end Items

/-- Reading a length prefix and as many items. -/
def readItems {α : Type} (read : Reader String α) : Reader String (Items α) := fun buf => do
  let (length, buf) ← readLength buf
  let (items, buf) ← readMany read length.count buf
  return (⟨length, items⟩, buf)

theorem readItems_inverts {α : Type} {read : Reader String α} {write : α → Bytes} {ok : α → Prop}
    (h : Inverts read write ok) :
    Inverts (readItems read) (Items.write write) (Items.Valid ok) := by
  refine ⟨fun {buf rest a} hread => ?_, fun {a} hvalid rest => ?_⟩
  · obtain ⟨⟨length, buf₁⟩, hlength, hread⟩ := ok_of_bind hread
    obtain ⟨⟨items, buf₂⟩, hitems, hread⟩ := ok_of_bind hread
    obtain ⟨rfl, rfl⟩ := Prod.mk.inj (Except.ok.inj hread)
    obtain ⟨hvalid, rfl⟩ := readLength_inverts.sound hlength
    obtain ⟨hcount, rfl⟩ := (h.many _).sound hitems
    exact ⟨⟨hvalid, hcount⟩, (List.append_assoc _ _ _).symm⟩
  · unfold readItems Items.write
    rw [List.append_assoc, bind_of_ok (readLength_inverts.complete hvalid.1 _)]
    exact bind_of_ok ((h.many _).complete hvalid.2 rest)

/-- Everything a transaction is made of; `rest` is what the parser leaves. -/
structure WireTx where
  signatures : Counted
  version : Bytes
  header : Bytes
  keys : Items Bytes
  blockhash : Bytes
  instructions : Items WireInstruction
  lookups : Option (Items WireLookup)
  rest : Bytes
  deriving DecidableEq

namespace WireTx

/-- `is_versioned`. -/
def isVersioned (w : WireTx) : Bool := decide (w.version ≠ [])

/-- The bytes of the transaction. -/
def bytes (w : WireTx) : Bytes :=
  w.signatures.write ++ (w.version ++ (w.header ++ (w.keys.write (fun key => key) ++ (w.blockhash ++
    (w.instructions.write WireInstruction.write ++
      ((w.lookups.elim [] (Items.write WireLookup.write)) ++ w.rest))))))

/-- It can be read: of a legacy message the first byte has no high bit and there are no lookups, and
a v0 message ends where its lookups are missing. -/
structure Valid (w : WireTx) : Prop where
  signatures : w.signatures.Valid 64
  version : w.version = [] ∧ (∀ b ∈ w.header.head?, b.toNat < 128) ∧ w.lookups = none ∨
    w.version = [0x80] ∧ (w.lookups = none → w.rest = [])
  header : w.header.length = 3
  keys : w.keys.Valid fun key => key.length = 32
  keys_ne_nil : w.keys.items ≠ []
  blockhash : w.blockhash.length = 32
  instructions : w.instructions.Valid WireInstruction.Valid
  lookups : ∀ section', w.lookups = some section' → section'.Valid WireLookup.Valid

/-- `account_keys`. -/
def accountKeys (w : WireTx) : List String := w.keys.items.map b58encode

/-- What `parse_transaction` makes of it. -/
def parsed (w : WireTx) : ParsedTx where
  accountKeys := w.accountKeys
  numRequiredSignatures := (w.header.headD 0).toNat
  payer := w.accountKeys.headD ""
  recentBlockhash := b58encode w.blockhash
  instructions := w.instructions.items.map (WireInstruction.parsed w.accountKeys)
  isVersioned := w.isVersioned
  hasAddressTableLookups :=
    (w.instructions.items.map (WireInstruction.parsed w.accountKeys)).any (altRegionHit w.accountKeys) ||
      w.lookups.any fun lookups => decide (0 < lookups.length.count)

end WireTx

/-- Reading the version byte, if there is one. -/
def readVersionByte : Reader String Bytes := fun message => do
  let (_, buf) ← readVersion message
  return (message.take (message.length - buf.length), buf)

/-- Reading the lookups of a v0 message; there are none where it ends before them. -/
def readWireLookups (isVersioned : Bool) : Reader String (Option (Items WireLookup)) := fun buf =>
  if isVersioned = true ∧ buf ≠ [] then do
    let (lookups, buf) ← readItems readWireLookup buf
    return (some lookups, buf)
  else .ok (none, buf)

/-- Reading a transaction. -/
def readWire (txBytes : Bytes) : Except String WireTx := do
  let (signatures, buf) ← readCounted 64 "truncated transaction: signatures section" txBytes
  let (version, buf) ← readVersionByte buf
  let (header, buf) ← takeExact 3 "truncated transaction: no message header" buf
  let (keys, buf) ← readItems (takeExact 32 "truncated transaction: account key") buf
  if keys.items = [] then .error "transaction has no account keys (no payer)"
  else
    let (blockhash, buf) ← takeExact 32 "truncated transaction: recent blockhash" buf
    let (instructions, buf) ← readItems readWireInstruction buf
    let (lookups, buf) ← readWireLookups (decide (version ≠ [])) buf
    return ⟨signatures, version, header, keys, blockhash, instructions, lookups, buf⟩

/-! ### Reading inverts writing -/

theorem readVersion_eq_ok_iff {isVersioned : Bool} {message buf : Bytes} :
    readVersion message = .ok (isVersioned, buf) ↔
      (isVersioned = true ∧ message = 0x80 :: buf) ∨
        (isVersioned = false ∧ message = buf ∧ ∃ b rest, buf = b :: rest ∧ b.toNat < 128) := by
  cases message with
  | nil =>
      refine ⟨fun h => (by cases h), ?_⟩
      rintro (⟨-, h⟩ | ⟨-, rfl, b, rest, h, -⟩)
      · cases h
      · cases h
  | cons b message =>
      obtain ⟨hhigh, hlow⟩ := byte_bits b.toNat b.toNat_lt
      unfold readVersion
      dsimp only
      split_ifs with hlegacy hzero
      · have hb := hhigh.1 hlegacy
        constructor
        · intro h
          obtain ⟨rfl, rfl⟩ := Prod.mk.inj (Except.ok.inj h)
          exact .inr ⟨rfl, rfl, b, message, rfl, hb⟩
        · rintro (⟨-, h⟩ | ⟨rfl, rfl, -⟩)
          · obtain ⟨rfl, -⟩ := List.cons.inj h
            cases hlegacy
          · rfl
      · have hb : b = 0x80 := by
          rw [hlow] at hzero
          have hnot : ¬ b.toNat < 128 := fun hlt => hlegacy (hhigh.2 hlt)
          have := b.toNat_lt
          refine UInt8.toNat_inj.1 ?_
          rw [show (0x80 : UInt8).toNat = 128 from rfl]
          omega
        subst hb
        constructor
        · intro h
          obtain ⟨rfl, rfl⟩ := Prod.mk.inj (Except.ok.inj h)
          exact .inl ⟨rfl, rfl⟩
        · rintro (⟨rfl, h⟩ | ⟨-, rfl, b, rest, h, hb⟩)
          · obtain ⟨-, rfl⟩ := List.cons.inj h
            rfl
          · obtain ⟨rfl, -⟩ := List.cons.inj h
            exact absurd hb (by decide)
      · refine ⟨fun h => (by cases h), ?_⟩
        rintro (⟨-, h⟩ | ⟨-, rfl, b', rest, h, hb⟩)
        · obtain ⟨rfl, -⟩ := List.cons.inj h
          exact absurd rfl hzero
        · obtain ⟨rfl, -⟩ := List.cons.inj h
          exact absurd (hhigh.2 hb) hlegacy

theorem readVersionByte_eq_ok_iff {version message buf : Bytes} :
    readVersionByte message = .ok (version, buf) ↔
      message = version ++ buf ∧ (version = [0x80] ∨
        version = [] ∧ ∃ b rest, buf = b :: rest ∧ b.toNat < 128) := by
  unfold readVersionByte
  constructor
  · intro h
    obtain ⟨⟨isVersioned, buf'⟩, hread, h⟩ := ok_of_bind h
    obtain ⟨rfl, rfl⟩ := Prod.mk.inj (Except.ok.inj h)
    rcases readVersion_eq_ok_iff.1 hread with ⟨-, rfl⟩ | ⟨-, rfl, hfirst⟩
    · simp
    · have htake : message.take (message.length - message.length) = [] := by simp
      rw [htake]
      exact ⟨rfl, .inr ⟨rfl, hfirst⟩⟩
  · rintro ⟨rfl, rfl | ⟨rfl, hfirst⟩⟩
    · refine (bind_of_ok (readVersion_eq_ok_iff.2 (.inl ⟨rfl, rfl⟩))).trans ?_
      simp [pure, Except.pure]
    · refine (bind_of_ok (readVersion_eq_ok_iff.2 (.inr ⟨rfl, rfl, hfirst⟩))).trans ?_
      simp [pure, Except.pure]

theorem readWireLookups_sound {isVersioned : Bool} {buf rest : Bytes}
    {lookups : Option (Items WireLookup)}
    (h : readWireLookups isVersioned buf = .ok (lookups, rest)) :
    buf = lookups.elim [] (Items.write WireLookup.write) ++ rest ∧
      (isVersioned = false → lookups = none) ∧ (isVersioned = true → lookups = none → rest = []) ∧
      ∀ a, lookups = some a → a.Valid WireLookup.Valid := by
  unfold readWireLookups at h
  split_ifs at h with hpresent
  · obtain ⟨⟨a, rest'⟩, hread, h⟩ := ok_of_bind h
    obtain ⟨rfl, rfl⟩ := Prod.mk.inj (Except.ok.inj h)
    obtain ⟨hvalid, rfl⟩ := (readItems_inverts readWireLookup_inverts).sound hread
    refine ⟨rfl, fun hlegacy => ?_, fun _ hnone => (by cases hnone), fun a' ha' => ?_⟩
    · rw [hpresent.1] at hlegacy
      cases hlegacy
    · obtain rfl := Option.some.inj ha'
      exact hvalid
  · obtain ⟨rfl, rfl⟩ := Prod.mk.inj (Except.ok.inj h)
    refine ⟨rfl, fun _ => rfl, fun hversioned _ => ?_, fun a ha => (by cases ha)⟩
    by_contra hrest
    exact hpresent ⟨hversioned, hrest⟩

theorem readWireLookups_complete {w : WireTx} (hvalid : w.Valid) :
    readWireLookups w.isVersioned (w.lookups.elim [] (Items.write WireLookup.write) ++ w.rest) =
      .ok (w.lookups, w.rest) := by
  unfold readWireLookups WireTx.isVersioned
  cases hlookups : w.lookups with
  | none =>
      refine if_neg ?_
      rintro ⟨hversioned, hne⟩
      rcases hvalid.version with ⟨hversion, -, -⟩ | ⟨-, hrest⟩
      · exact of_decide_eq_true hversioned hversion
      · exact hne (hrest hlookups)
  | some lookups =>
      have hlegal := hvalid.lookups lookups hlookups
      rcases hvalid.version with ⟨-, -, hnone⟩ | ⟨hversion, -⟩
      · rw [hlookups] at hnone
        cases hnone
      · have hne : lookups.write WireLookup.write ++ w.rest ≠ [] := by
          intro hnil
          have hlength := (List.append_eq_nil_iff.1 (List.append_eq_nil_iff.1 hnil).1).1
          exact hlegal.1.1.ne_nil hlength
        refine (if_pos ⟨by rw [hversion]; rfl, hne⟩).trans ?_
        exact bind_of_ok ((readItems_inverts readWireLookup_inverts).complete hlegal w.rest)

/-- **Reading a transaction inverts writing it.** -/
theorem readWire_eq_ok_iff {txBytes : Bytes} {w : WireTx} :
    readWire txBytes = .ok w ↔ w.Valid ∧ txBytes = w.bytes := by
  constructor
  · intro h
    unfold readWire at h
    obtain ⟨⟨signatures, buf₁⟩, hsignatures, h⟩ := ok_of_bind h
    obtain ⟨⟨version, buf₂⟩, hversion, h⟩ := ok_of_bind h
    obtain ⟨⟨header, buf₃⟩, hheader, h⟩ := ok_of_bind h
    obtain ⟨⟨keys, buf₄⟩, hkeys, h⟩ := ok_of_bind h
    dsimp only at h
    split_ifs at h with hempty
    obtain ⟨⟨blockhash, buf₅⟩, hblockhash, h⟩ := ok_of_bind h
    obtain ⟨⟨instructions, buf₆⟩, hinstructions, h⟩ := ok_of_bind h
    obtain ⟨⟨lookups, rest⟩, hlookups, h⟩ := ok_of_bind h
    obtain rfl := Except.ok.inj h
    obtain ⟨hsignatures', rfl⟩ := (readCounted_inverts _ _).sound hsignatures
    obtain ⟨rfl, hversion'⟩ := readVersionByte_eq_ok_iff.1 hversion
    obtain ⟨hheader', rfl⟩ := (takeExact_inverts _ _).sound hheader
    obtain ⟨hkeys', rfl⟩ := (readItems_inverts (takeExact_inverts 32 _)).sound hkeys
    obtain ⟨hblockhash', rfl⟩ := (takeExact_inverts _ _).sound hblockhash
    obtain ⟨hinstructions', rfl⟩ := (readItems_inverts readWireInstruction_inverts).sound hinstructions
    obtain ⟨rfl, hlegacy, hversioned, hlookups'⟩ := readWireLookups_sound hlookups
    refine ⟨⟨hsignatures', ?_, hheader', hkeys', hempty, hblockhash', hinstructions', hlookups'⟩, ?_⟩
    · rcases hversion' with rfl | ⟨rfl, b, tail, hfirst, hb⟩
      · exact .inr ⟨rfl, hversioned rfl⟩
      · refine .inl ⟨rfl, fun b' hb' => ?_, hlegacy rfl⟩
        obtain ⟨header', rfl⟩ := List.head?_eq_some_iff.1 hb'
        obtain ⟨rfl, -⟩ := List.cons.inj hfirst
        exact hb
    · simp [WireTx.bytes]
  · rintro ⟨hvalid, rfl⟩
    have hversion : w.version = [0x80] ∨ w.version = [] ∧
        ∃ b rest, w.header = b :: rest ∧ b.toNat < 128 := by
      rcases hvalid.version with ⟨hversion, hfirst, -⟩ | ⟨hversion, -⟩
      · have hpos : 0 < w.header.length := by
          rw [hvalid.header]
          decide
        obtain ⟨b, rest, hheader⟩ := List.exists_cons_of_length_pos hpos
        rw [hheader] at hfirst
        exact .inr ⟨hversion, b, rest, hheader, hfirst b rfl⟩
      · exact .inl hversion
    unfold readWire WireTx.bytes
    refine (bind_of_ok ((readCounted_inverts _ _).complete hvalid.signatures _)).trans ?_
    refine (bind_of_ok (readVersionByte_eq_ok_iff.2 ⟨rfl, ?_⟩)).trans ?_
    · rcases hversion with hversion | ⟨hversion, b, rest, hheader, hb⟩
      · exact .inl hversion
      · exact .inr ⟨hversion, b, _, by rw [hheader, List.cons_append], hb⟩
    refine (bind_of_ok ((takeExact_inverts _ _).complete hvalid.header _)).trans ?_
    refine (bind_of_ok
      ((readItems_inverts (takeExact_inverts 32 _)).complete hvalid.keys _)).trans ?_
    refine (if_neg hvalid.keys_ne_nil).trans ?_
    refine (bind_of_ok ((takeExact_inverts _ _).complete hvalid.blockhash _)).trans ?_
    refine (bind_of_ok
      ((readItems_inverts readWireInstruction_inverts).complete hvalid.instructions _)).trans ?_
    exact bind_of_ok (readWireLookups_complete hvalid)

/-! ### What the parser returns -/

theorem readCompactU16_eq_map (buf : Bytes) :
    readCompactU16 buf = (fun p => (p.1.count, p.2)) <$> readLength buf := by
  unfold readLength
  rcases readCompactU16 buf with e | ⟨count, rest⟩
  · rfl
  · rfl

theorem readKeys_eq_map (n : ℕ) (buf : Bytes) :
    readKeys n buf = (fun p => (p.1.map b58encode, p.2)) <$>
      readMany (takeExact 32 "truncated transaction: account key") n buf := by
  induction n generalizing buf with
  | zero => rfl
  | succ n ih => simp [readKeys, readMany, ih]

theorem readInstruction_eq_map (keys : List String) (buf : Bytes) :
    readInstruction keys buf = (fun p => (p.1.parsed keys, p.2)) <$> readWireInstruction buf := by
  simp [readInstruction, readWireInstruction, readCounted, readCompactU16_eq_map,
    WireInstruction.parsed]

theorem readInstructions_eq_map (keys : List String) (n : ℕ) (buf : Bytes) :
    readInstructions keys n buf = (fun p => (p.1.map (WireInstruction.parsed keys), p.2)) <$>
      readMany readWireInstruction n buf := by
  induction n generalizing buf with
  | zero => rfl
  | succ n ih => simp [readInstructions, readMany, readInstruction_eq_map, ih]

theorem skipLookups_eq_map (n : ℕ) (buf : Bytes) :
    skipLookups n buf = Prod.snd <$> readMany readWireLookup n buf := by
  induction n generalizing buf with
  | zero => rfl
  | succ n ih =>
      simp [skipLookups, readMany, readWireLookup, readCounted, readCompactU16_eq_map, ih]

theorem readLookups_eq_map (isVersioned : Bool) (buf : Bytes) :
    readLookups isVersioned buf = (fun p => p.1.any fun lookups => decide (0 < lookups.length.count)) <$>
      readWireLookups isVersioned buf := by
  unfold readLookups readWireLookups
  split_ifs with hpresent
  · simp [readItems, readCompactU16_eq_map, skipLookups_eq_map]
  · rfl

theorem readVersion_eq_map (message : Bytes) :
    readVersion message = (fun p => (decide (p.1 ≠ []), p.2)) <$> readVersionByte message := by
  cases hread : readVersion message with
  | error e =>
      unfold readVersionByte
      rw [bind_of_error hread]
      rfl
  | ok p =>
      obtain ⟨isVersioned, buf⟩ := p
      rcases readVersion_eq_ok_iff.1 hread with ⟨rfl, rfl⟩ | ⟨rfl, rfl, hfirst⟩
      · rw [show readVersionByte (0x80 :: buf) = .ok ([0x80], buf) from
          readVersionByte_eq_ok_iff.2 ⟨rfl, .inl rfl⟩]
        rfl
      · rw [show readVersionByte message = .ok ([], message) from
          readVersionByte_eq_ok_iff.2 ⟨rfl, .inr ⟨rfl, hfirst⟩⟩]
        rfl

/-- **The parser reads the layout**, and raises where there is none. -/
theorem parseTransaction_eq_readWire (txBytes : Bytes) :
    parseTransaction txBytes = WireTx.parsed <$> readWire txBytes := by
  simp [parseTransaction, parseMessage, readWire, readCounted, readItems, readCompactU16_eq_map,
    readVersion_eq_map, readKeys_eq_map, readInstructions_eq_map, readLookups_eq_map]
  refine bind_congr fun _ => bind_congr fun _ => bind_congr fun _ => ?_
  refine bind_congr fun _ => bind_congr fun _ => bind_congr fun keys => ?_
  obtain ⟨items, buf⟩ := keys
  cases items with
  | nil => rfl
  | cons key items => simp [WireTx.parsed, WireTx.accountKeys, WireTx.isVersioned]

end Wire
end AatsSniper
