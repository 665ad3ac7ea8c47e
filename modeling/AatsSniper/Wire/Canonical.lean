/-
# The canonical spelling of a transaction

`Contents` is what a transaction says: its signature slots, its header, its keys, its
instructions and its lookups, without the spelling of any length.  `Contents.layout`
spells them canonically: every length prefix the shortest, the lookups of a v0
message always there, nothing after the message; `Contents.serialize` refuses a length
that a compact-u16 does not hold.

`parse_transaction` accepts more.  `reserialize` puts a parsed message together again
with the signature slots, the header and the lookups of the original, and gives the
original back exactly for the layouts that are canonical (`reserialize_iff`): a length
prefix may be over-long or above 65535, a v0 message may end before its lookups, and
anything may follow the message.
-/

import AatsSniper.Wire.Layout

namespace AatsSniper
namespace Wire

open Varint (Spells Shortest encode)

/-! ### Canonical layouts -/

/-- The shortest prefix of a length. -/
def Length.canonical (n : ℕ) : Length := ⟨encode n, n⟩

/-- Bytes behind the shortest prefix, `size` bytes for each counted. -/
def Counted.canonical (size : ℕ) (bytes : Bytes) : Counted :=
  ⟨.canonical (bytes.length / size), bytes⟩

/-- Items behind the shortest prefix. -/
def Items.canonical {α β : Type} (layout : α → β) (items : List α) : Items β :=
  ⟨.canonical items.length, items.map layout⟩

/-- What an instruction says. -/
structure InstructionContents where
  programIdIndex : UInt8
  accounts : Bytes
  data : Bytes
  deriving DecidableEq

/-- Its canonical layout. -/
def InstructionContents.layout (ix : InstructionContents) : WireInstruction :=
  ⟨[ix.programIdIndex], .canonical 1 ix.accounts, .canonical 1 ix.data⟩

/-- What a lookup says. -/
structure LookupContents where
  account : Bytes
  writable : Bytes
  readonly : Bytes
  deriving DecidableEq

/-- Its canonical layout. -/
def LookupContents.layout (l : LookupContents) : WireLookup :=
  ⟨l.account, .canonical 1 l.writable, .canonical 1 l.readonly⟩

/-- What a transaction says. -/
structure Contents where
  signatures : Bytes
  isVersioned : Bool
  header : Bytes
  keys : List Bytes
  blockhash : Bytes
  instructions : List InstructionContents
  lookups : List LookupContents
  deriving DecidableEq

namespace Contents

/-- Its canonical layout. -/
def layout (c : Contents) : WireTx where
  signatures := .canonical 64 c.signatures
  version := if c.isVersioned then [0x80] else []
  header := c.header
  keys := .canonical (fun key => key) c.keys
  blockhash := c.blockhash
  instructions := .canonical InstructionContents.layout c.instructions
  lookups := if c.isVersioned then some (.canonical LookupContents.layout c.lookups) else none
  rest := []

end Contents

/-- Its lengths fit in a prefix. -/
def InstructionContents.Spellable (ix : InstructionContents) : Prop :=
  ix.accounts.length < 2 ^ 21 ∧ ix.data.length < 2 ^ 21

/-- Its lengths fit in a prefix. -/
def LookupContents.Spellable (l : LookupContents) : Prop :=
  l.account.length = 32 ∧ l.writable.length < 2 ^ 21 ∧ l.readonly.length < 2 ^ 21

/-- The fields have their widths, the lengths fit in a prefix, and a legacy message is not taken for
a v0 one. -/
structure Contents.Spellable (c : Contents) : Prop where
  signatures : c.signatures.length % 64 = 0
  slots : c.signatures.length / 64 < 2 ^ 21
  header : c.header.length = 3
  legacy : c.isVersioned = false → ∀ b ∈ c.header.head?, b.toNat < 128
  keys : c.keys.length < 2 ^ 21 ∧ ∀ key ∈ c.keys, key.length = 32
  keys_ne_nil : c.keys ≠ []
  blockhash : c.blockhash.length = 32
  instructions : c.instructions.length < 2 ^ 21 ∧ ∀ ix ∈ c.instructions, ix.Spellable
  lookups : c.lookups.length < 2 ^ 21 ∧ ∀ l ∈ c.lookups, l.Spellable

/-! ### The length prefixes of a layout -/

/-- The length prefixes of an instruction. -/
def WireInstruction.prefixes (ix : WireInstruction) : List Length :=
  [ix.accounts.length, ix.data.length]

/-- The length prefixes of a lookup. -/
def WireLookup.prefixes (l : WireLookup) : List Length := [l.writable.length, l.readonly.length]

/-- The length prefixes of items: their own, and each item's. -/
def Items.prefixes {α : Type} (prefixes : α → List Length) (a : Items α) : List Length :=
  a.length :: a.items.flatMap prefixes

/-- The length prefixes of a transaction. -/
def WireTx.prefixes (w : WireTx) : List Length :=
  w.signatures.length :: w.keys.length ::
    (w.instructions.prefixes WireInstruction.prefixes ++
      w.lookups.elim [] (Items.prefixes WireLookup.prefixes))

/-- The canonical serialization: none with a length above 65535. -/
def Contents.serialize (c : Contents) : Option Bytes :=
  if ∀ l ∈ c.layout.prefixes, l.count ≤ 65535 then some c.layout.bytes else none

/-! ### What a layout says -/

/-- What an instruction says. -/
def WireInstruction.contents (ix : WireInstruction) : InstructionContents :=
  ⟨ix.programIdIndex.headD 0, ix.accounts.bytes, ix.data.bytes⟩

/-- What a lookup says. -/
def WireLookup.contents (l : WireLookup) : LookupContents :=
  ⟨l.account, l.writable.bytes, l.readonly.bytes⟩

/-- What a transaction says. -/
def WireTx.contents (w : WireTx) : Contents where
  signatures := w.signatures.bytes
  isVersioned := w.isVersioned
  header := w.header
  keys := w.keys.items
  blockhash := w.blockhash
  instructions := w.instructions.items.map WireInstruction.contents
  lookups := w.lookups.elim [] fun lookups => lookups.items.map WireLookup.contents

/-- A layout with no slack: the shortest prefixes, the lookups of a v0 message, and nothing after
the message. -/
structure WireTx.Canonical (w : WireTx) : Prop where
  shortest : ∀ l ∈ w.prefixes, Shortest l.bytes
  small : ∀ l ∈ w.prefixes, l.count ≤ 65535
  complete : w.isVersioned = true → w.lookups ≠ none
  ends : w.rest = []

section Prefixes

variable {l : Length} {n size : ℕ}

/-- Three bytes hold 21 bits. -/
theorem Length.Valid.count_lt (h : l.Valid) : l.count < 2 ^ 21 := by
  calc l.count < 128 ^ l.bytes.length := h.1.lt
    _ ≤ 128 ^ 3 := Nat.pow_le_pow_right (by decide) h.2
    _ = 2 ^ 21 := by norm_num

theorem Length.canonical_valid (h : n < 2 ^ 21) : (Length.canonical n).Valid :=
  ⟨Varint.spells_encode n, Varint.length_encode_le (by decide) (by simpa using h)⟩

theorem Length.canonical_shortest (n : ℕ) : Shortest (Length.canonical n).bytes :=
  Varint.encode_shortest n

/-- A prefix with no zeros for high digits is the canonical one. -/
theorem Length.Valid.canonical_eq (h : l.Valid) (hshortest : Shortest l.bytes) :
    Length.canonical l.count = l := by
  obtain ⟨bytes, count⟩ := l
  exact congrArg (fun b => (⟨b, count⟩ : Length)) (h.1.shortest_iff.1 hshortest).symm

theorem Counted.canonical_valid {bytes : Bytes} (hsize : bytes.length % size = 0)
    (h : bytes.length / size < 2 ^ 21) : (Counted.canonical size bytes).Valid size :=
  ⟨Length.canonical_valid h, (Nat.div_mul_cancel (Nat.dvd_of_mod_eq_zero hsize)).symm⟩

variable {c : Counted}

theorem Counted.Valid.canonical_eq (h : c.Valid size) (hsize : 0 < size)
    (hshortest : Shortest c.length.bytes) : Counted.canonical size c.bytes = c := by
  obtain ⟨length, bytes⟩ := c
  have hcount : bytes.length / size = length.count := by
    rw [h.2, Nat.mul_div_cancel _ hsize]
  rw [Counted.canonical, hcount, h.1.canonical_eq hshortest]

theorem Counted.Valid.length_lt (h : c.Valid 1) : c.bytes.length < 2 ^ 21 := by
  rw [h.2, Nat.mul_one]
  exact h.1.count_lt

/-- A byte a count. -/
theorem Counted.canonical_one_valid {bytes : Bytes} (h : bytes.length < 2 ^ 21) :
    (Counted.canonical 1 bytes).Valid 1 :=
  Counted.canonical_valid (Nat.mod_one _) (by rwa [Nat.div_one])

end Prefixes

/-! ### Items -/

section Items

variable {α β : Type} {layout : α → β} {contents : β → α} {ok : β → Prop}
  {prefixes : β → List Length}

theorem Items.canonical_valid {items : List α} (hlength : items.length < 2 ^ 21)
    (hok : ∀ item ∈ items, ok (layout item)) : (Items.canonical layout items).Valid ok := by
  refine ⟨Length.canonical_valid hlength, List.length_map _, fun item hitem => ?_⟩
  obtain ⟨a, ha, rfl⟩ := List.mem_map.1 hitem
  exact hok a ha

variable {a : Items β}

theorem Items.Valid.length_lt (h : a.Valid ok) : a.items.length < 2 ^ 21 := by
  rw [h.2.1]
  exact h.1.count_lt

theorem Items.Valid.canonical_eq (h : a.Valid ok) (hshortest : Shortest a.length.bytes)
    (heq : ∀ item ∈ a.items, layout (contents item) = item) :
    Items.canonical layout (a.items.map contents) = a := by
  obtain ⟨length, items⟩ := a
  have hmap : (items.map contents).map layout = items := by
    rw [List.map_map]
    exact (List.map_congr_left heq).trans (List.map_id items)
  rw [Items.canonical, hmap, List.length_map, h.2.1, h.1.canonical_eq hshortest]

theorem Items.shortest_of_canonical {items : List α}
    (hshortest : ∀ item ∈ items, ∀ l ∈ prefixes (layout item), Shortest l.bytes) :
    ∀ l ∈ (Items.canonical layout items).prefixes prefixes, Shortest l.bytes := by
  refine List.forall_mem_cons.2 ⟨Length.canonical_shortest _, fun l hl => ?_⟩
  obtain ⟨item, hitem, hl⟩ := List.mem_flatMap.1 hl
  obtain ⟨x, hx, rfl⟩ := List.mem_map.1 hitem
  exact hshortest x hx l hl

end Items

/-! ### Instructions and lookups -/

theorem InstructionContents.Spellable.valid {ix : InstructionContents} (h : ix.Spellable) :
    ix.layout.Valid :=
  ⟨rfl, Counted.canonical_one_valid h.1, Counted.canonical_one_valid h.2⟩

theorem WireInstruction.Valid.spellable {ix : WireInstruction} (h : ix.Valid) :
    ix.contents.Spellable :=
  ⟨h.2.1.length_lt, h.2.2.length_lt⟩

theorem WireInstruction.Valid.canonical_eq {ix : WireInstruction} (h : ix.Valid)
    (hshortest : ∀ l ∈ ix.prefixes, Shortest l.bytes) : ix.contents.layout = ix := by
  obtain ⟨index, accounts, data⟩ := ix
  obtain ⟨hone, haccounts, hdata⟩ := h
  obtain ⟨b, rfl⟩ := List.length_eq_one_iff.1 hone
  rw [InstructionContents.layout, WireInstruction.contents,
    haccounts.canonical_eq Nat.one_pos (hshortest _ List.mem_cons_self),
    hdata.canonical_eq Nat.one_pos (hshortest _ (by simp [prefixes]))]
  rfl

theorem LookupContents.Spellable.valid {l : LookupContents} (h : l.Spellable) : l.layout.Valid :=
  ⟨h.1, Counted.canonical_one_valid h.2.1, Counted.canonical_one_valid h.2.2⟩

theorem WireLookup.Valid.spellable {l : WireLookup} (h : l.Valid) : l.contents.Spellable :=
  ⟨h.1, h.2.1.length_lt, h.2.2.length_lt⟩

theorem WireLookup.Valid.canonical_eq {l : WireLookup} (h : l.Valid)
    (hshortest : ∀ p ∈ l.prefixes, Shortest p.bytes) : l.contents.layout = l := by
  obtain ⟨account, writable, readonly⟩ := l
  obtain ⟨-, hwritable, hreadonly⟩ := h
  rw [LookupContents.layout, WireLookup.contents,
    hwritable.canonical_eq Nat.one_pos (hshortest _ List.mem_cons_self),
    hreadonly.canonical_eq Nat.one_pos (hshortest _ (by simp [prefixes]))]

/-! ### The whole transaction -/

namespace Contents

/-- Every prefix of a canonical layout is the shortest. -/
theorem shortest_of_layout (c : Contents) : ∀ l ∈ c.layout.prefixes, Shortest l.bytes := by
  have hinstructions : ∀ l ∈ c.layout.instructions.prefixes WireInstruction.prefixes,
      Shortest l.bytes := by
    refine Items.shortest_of_canonical fun ix _ => ?_
    simp [WireInstruction.prefixes, InstructionContents.layout, Counted.canonical,
      Length.canonical_shortest]
  have hlookups : ∀ l ∈ (Items.canonical LookupContents.layout c.lookups).prefixes
      WireLookup.prefixes, Shortest l.bytes := by
    refine Items.shortest_of_canonical fun lookup _ => ?_
    simp [WireLookup.prefixes, LookupContents.layout, Counted.canonical, Length.canonical_shortest]
  refine List.forall_mem_cons.2 ⟨Length.canonical_shortest _, ?_⟩
  refine List.forall_mem_cons.2 ⟨Length.canonical_shortest _, fun l hl => ?_⟩
  rcases List.mem_append.1 hl with hl | hl
  · exact hinstructions l hl
  · rw [layout] at hl
    dsimp only at hl
    split_ifs at hl with hversioned
    · exact hlookups l hl
    · cases hl

/-- A canonical layout has no slack but its lengths. -/
theorem canonical_of_layout {c : Contents} (hsmall : ∀ l ∈ c.layout.prefixes, l.count ≤ 65535) :
    c.layout.Canonical := by
  refine ⟨c.shortest_of_layout, hsmall, fun hversioned => ?_, rfl⟩
  cases hc : c.isVersioned with
  | false =>
      simp [WireTx.isVersioned, layout, hc] at hversioned
  | true =>
      simp [layout, hc]

end Contents

/-- What can be spelled can be read. -/
theorem Contents.Spellable.valid {c : Contents} (h : c.Spellable) : c.layout.Valid where
  signatures := Counted.canonical_valid h.signatures h.slots
  version := by
    cases hc : c.isVersioned with
    | false => exact .inl ⟨by simp [layout, hc], h.legacy hc, by simp [layout, hc]⟩
    | true => exact .inr ⟨by simp [layout, hc], fun _ => rfl⟩
  header := h.header
  keys := Items.canonical_valid h.keys.1 h.keys.2
  keys_ne_nil := by
    show c.keys.map (fun key => key) ≠ []
    rw [List.map_id']
    exact h.keys_ne_nil
  blockhash := h.blockhash
  instructions := Items.canonical_valid h.instructions.1 fun ix hix => (h.instructions.2 ix hix).valid
  lookups := by
    intro lookups hlookups
    rw [layout] at hlookups
    dsimp only at hlookups
    split_ifs at hlookups with hc
    obtain rfl := Option.some.inj hlookups
    exact Items.canonical_valid h.lookups.1 fun l hl => (h.lookups.2 l hl).valid

/-- What can be read can be spelled. -/
theorem WireTx.Valid.spellable {w : WireTx} (h : w.Valid) : w.contents.Spellable where
  signatures := by
    show w.signatures.bytes.length % 64 = 0
    rw [h.signatures.2, Nat.mul_mod_left]
  slots := by
    show w.signatures.bytes.length / 64 < 2 ^ 21
    rw [h.signatures.2, Nat.mul_div_cancel _ (by decide)]
    exact h.signatures.1.count_lt
  header := h.header
  legacy := by
    intro hlegacy
    rcases h.version with ⟨-, hfirst, -⟩ | ⟨hversion, -⟩
    · exact hfirst
    · simp [contents, isVersioned, hversion] at hlegacy
  keys := ⟨h.keys.length_lt, h.keys.2.2⟩
  keys_ne_nil := h.keys_ne_nil
  blockhash := h.blockhash
  instructions := by
    refine ⟨?_, fun ix hix => ?_⟩
    · show (w.instructions.items.map WireInstruction.contents).length < 2 ^ 21
      rw [List.length_map]
      exact h.instructions.length_lt
    · obtain ⟨item, hitem, rfl⟩ := List.mem_map.1 hix
      exact (h.instructions.2.2 item hitem).spellable
  lookups := by
    cases hlookups : w.lookups with
    | none => simp [contents, hlookups]
    | some lookups =>
        have hlegal := h.lookups lookups hlookups
        simp only [contents, hlookups, Option.elim_some, List.length_map, List.mem_map]
        refine ⟨hlegal.length_lt, ?_⟩
        rintro l ⟨item, hitem, rfl⟩
        exact (hlegal.2.2 item hitem).spellable

/-- A layout with no slack is the canonical one. -/
theorem WireTx.Valid.canonical_eq {w : WireTx} (h : w.Valid) (hcanonical : w.Canonical) :
    w.contents.layout = w := by
  obtain ⟨signatures, version, header, keys, blockhash, instructions, lookups, rest⟩ := w
  have hshortest := hcanonical.shortest
  have hinstructions : ∀ l ∈ instructions.prefixes WireInstruction.prefixes, Shortest l.bytes :=
    fun l hl => hshortest l (by simp [prefixes, hl])
  have hlookups : ∀ l ∈ lookups.elim [] (Items.prefixes WireLookup.prefixes), Shortest l.bytes :=
    fun l hl => hshortest l (by simp [prefixes, hl])
  have hkeys : Items.canonical (fun key => key) (keys.items.map fun key => key) = keys :=
    h.keys.canonical_eq (hshortest _ (by simp [prefixes])) fun _ _ => rfl
  rw [List.map_id'] at hkeys
  have hix : Items.canonical InstructionContents.layout
      (instructions.items.map WireInstruction.contents) = instructions :=
    h.instructions.canonical_eq (hinstructions _ List.mem_cons_self) fun ix hix =>
      (h.instructions.2.2 ix hix).canonical_eq fun l hl =>
        hinstructions l (List.mem_cons_of_mem _ (List.mem_flatMap.2 ⟨ix, hix, hl⟩))
  have hsignatures : Counted.canonical 64 signatures.bytes = signatures :=
    h.signatures.canonical_eq (by decide) (hshortest _ List.mem_cons_self)
  have hrest : rest = [] := hcanonical.ends
  rcases h.version with ⟨hversion, -, hnone⟩ | ⟨hversion, -⟩
  · dsimp only at hversion hnone
    subst hversion hnone hrest
    simp [Contents.layout, contents, isVersioned, hsignatures, hkeys, hix]
  · dsimp only at hversion
    subst hversion hrest
    cases lookups with
    | none => exact absurd rfl (hcanonical.complete rfl)
    | some lookups =>
        have hlegal := h.lookups lookups rfl
        have hitems : Items.canonical LookupContents.layout
            (lookups.items.map WireLookup.contents) = lookups :=
          hlegal.canonical_eq (hlookups _ List.mem_cons_self) fun l hl =>
            (hlegal.2.2 l hl).canonical_eq fun p hp =>
              hlookups p (List.mem_cons_of_mem _ (List.mem_flatMap.2 ⟨l, hl, hp⟩))
        simp [Contents.layout, contents, isVersioned, hsignatures, hkeys, hix, hitems]

/-- **What is serialized to itself** is what has no slack. -/
theorem WireTx.Valid.serialize_eq_iff {w : WireTx} (h : w.Valid) :
    w.contents.serialize = some w.bytes ↔ w.Canonical := by
  unfold Contents.serialize
  constructor
  · intro hserialize
    split_ifs at hserialize with hsmall
    have hbytes := Option.some.inj hserialize
    have hread := readWire_eq_ok_iff.2 ⟨h.spellable.valid, hbytes.symm⟩
    rw [readWire_eq_ok_iff.2 ⟨h, rfl⟩] at hread
    rw [Except.ok.inj hread]
    exact Contents.canonical_of_layout hsmall
  · intro hcanonical
    rw [h.canonical_eq hcanonical, if_pos hcanonical.small]

/-! ### A parsed message put together again -/

/-- What a parsed transaction does not keep. -/
structure Unparsed where
  signatures : Bytes
  header : Bytes
  lookups : List LookupContents
  deriving DecidableEq

/-- What is lost of a layout. -/
def WireTx.unparsed (w : WireTx) : Unparsed := ⟨w.signatures.bytes, w.header, w.contents.lookups⟩

/-- What a parsed instruction says. -/
def ParsedInstruction.contents (ix : ParsedInstruction) : InstructionContents :=
  ⟨UInt8.ofNat ix.programIdIndex, ix.accountIndices.map UInt8.ofNat, ix.data⟩

/-- What a parsed transaction says, with what it does not keep. -/
def ParsedTx.contents (t : ParsedTx) (kept : Unparsed) : Except String Contents := do
  let keys ← t.accountKeys.mapM b58decode
  let blockhash ← b58decode t.recentBlockhash
  return { signatures := kept.signatures
           isVersioned := t.isVersioned
           header := kept.header
           keys := keys
           blockhash := blockhash
           instructions := t.instructions.map ParsedInstruction.contents
           lookups := kept.lookups }

/-- The canonical serialization of a parsed transaction. -/
def reserialize (t : ParsedTx) (kept : Unparsed) : Option Bytes :=
  (t.contents kept).toOption.bind Contents.serialize

theorem mapM_b58decode_map_b58encode (keys : List Bytes) :
    (keys.map b58encode).mapM b58decode = .ok keys :=
  mapM_map_eq_ok fun _ _ => b58decode_eq_ok_iff.2 rfl

theorem WireInstruction.contents_parsed (keys : List String) (ix : WireInstruction) :
    (ix.parsed keys).contents = ix.contents := by
  simp [parsed, contents, ParsedInstruction.contents, Function.comp_def]

/-- The parser keeps the rest. -/
theorem WireTx.contents_parsed (w : WireTx) : w.parsed.contents w.unparsed = .ok w.contents := by
  have hinstructions : w.parsed.instructions.map ParsedInstruction.contents =
      w.instructions.items.map WireInstruction.contents := by
    simp [parsed, WireInstruction.contents_parsed]
  unfold ParsedTx.contents
  refine (bind_of_ok (mapM_b58decode_map_b58encode w.keys.items)).trans ?_
  refine (bind_of_ok (b58decode_eq_ok_iff.2 rfl)).trans ?_
  rw [hinstructions]
  rfl

theorem WireTx.Valid.reserialize_eq_iff {w : WireTx} (h : w.Valid) :
    reserialize w.parsed w.unparsed = some w.bytes ↔ w.Canonical := by
  rw [reserialize, w.contents_parsed]
  exact h.serialize_eq_iff

/-- **Re-serializing what is accepted** reproduces it iff its layout has no slack: every length
prefix is the shortest and at most 65535, a v0 message spells its lookups, and nothing follows the
message.  The layout is the one `readWire` reads off the bytes. -/
theorem reserialize_iff {txBytes : Bytes} {t : ParsedTx} (h : parseTransaction txBytes = .ok t) :
    ∃ w, readWire txBytes = .ok w ∧ (reserialize t w.unparsed = some txBytes ↔ w.Canonical) := by
  rw [parseTransaction_eq_readWire] at h
  obtain ⟨w, hread, rfl⟩ := map_eq_ok.1 h
  obtain ⟨hvalid, rfl⟩ := readWire_eq_ok_iff.1 hread
  exact ⟨w, hread, hvalid.reserialize_eq_iff⟩

/-- A v0 message with one key and no instructions. -/
def oneKey : Contents where
  signatures := []
  isVersioned := true
  header := [1, 0, 0]
  keys := [List.replicate 32 0]
  blockhash := List.replicate 32 0
  instructions := []
  lookups := []

theorem oneKey_spellable : oneKey.Spellable := by
  constructor <;> simp [oneKey]

theorem reserialize_iff_oneKey :
    parseTransaction oneKey.layout.bytes = .ok oneKey.layout.parsed ∧
      ∃ w, readWire oneKey.layout.bytes = .ok w ∧
        (reserialize oneKey.layout.parsed w.unparsed = some oneKey.layout.bytes ↔ w.Canonical) := by
  have hparse : parseTransaction oneKey.layout.bytes = .ok oneKey.layout.parsed := by
    rw [parseTransaction_eq_readWire, readWire_eq_ok_iff.2 ⟨oneKey_spellable.valid, rfl⟩]
    rfl
  exact ⟨hparse, reserialize_iff hparse⟩

/-- The signature count spelled `80 00`. -/
def overlong : WireTx := { oneKey.layout with signatures := ⟨⟨[0x80, 0], 0⟩, []⟩ }

/-- An instruction with the data. -/
def withData (data : Bytes) : Contents := { oneKey with instructions := [⟨0, [], data⟩] }

theorem withData_spellable {data : Bytes} (h : data.length < 2 ^ 21) : (withData data).Spellable :=
  { oneKey_spellable with instructions := by simpa [withData, InstructionContents.Spellable] using h }

theorem canonical_mem_prefixes_withData (data : Bytes) :
    Length.canonical data.length ∈ (withData data).layout.prefixes := by
  simp [WireTx.prefixes, withData, Contents.layout, Items.canonical, Items.prefixes,
    InstructionContents.layout, WireInstruction.prefixes, Counted.canonical]

/-- An instruction with 65536 bytes of data. -/
def wide : WireTx := (withData (List.replicate 65536 0)).layout

/-- No lookup section. -/
def cut : WireTx := { oneKey.layout with lookups := none }

/-- A byte after the message. -/
def trailing : WireTx := { oneKey.layout with rest := [0] }

/-- It is accepted, and is not what its contents serialize to. -/
def WireTx.AcceptedWithSlack (w : WireTx) : Prop :=
  parseTransaction w.bytes = .ok w.parsed ∧ readWire w.bytes = .ok w ∧
    reserialize w.parsed w.unparsed ≠ some w.bytes

theorem WireTx.Valid.acceptedWithSlack {w : WireTx} (h : w.Valid) (hslack : ¬ w.Canonical) :
    w.AcceptedWithSlack := by
  have hread := readWire_eq_ok_iff.2 ⟨h, rfl⟩
  refine ⟨?_, hread, fun heq => hslack (h.reserialize_eq_iff.1 heq)⟩
  rw [parseTransaction_eq_readWire, hread]
  rfl

theorem slack_accepted : overlong.AcceptedWithSlack ∧ wide.AcceptedWithSlack ∧
    cut.AcceptedWithSlack ∧ trailing.AcceptedWithSlack := by
  have hvalid := oneKey_spellable.valid
  have hoverlong : overlong.Valid :=
    { hvalid with
      signatures := ⟨⟨.more 0x80 (by decide) (.last 0 (by decide)), by decide⟩, rfl⟩ }
  have hwide : wide.Valid := (withData_spellable (by rw [List.length_replicate]; norm_num)).valid
  have hcut : cut.Valid :=
    { hvalid with version := .inr ⟨rfl, fun _ => rfl⟩, lookups := fun _ h => (by cases h) }
  have htrailing : trailing.Valid :=
    { hvalid with version := .inr ⟨rfl, fun h => (by cases h)⟩ }
  refine ⟨hoverlong.acceptedWithSlack fun h => ?_, hwide.acceptedWithSlack fun h => ?_,
    hcut.acceptedWithSlack fun h => h.complete rfl rfl,
    htrailing.acceptedWithSlack fun h => absurd h.ends (by decide)⟩
  · exact absurd (h.shortest _ List.mem_cons_self) (by decide)
  · have hlength := h.small _ (canonical_mem_prefixes_withData _)
    rw [Length.canonical, List.length_replicate] at hlength
    exact absurd hlength (by decide)

end Wire
end AatsSniper
