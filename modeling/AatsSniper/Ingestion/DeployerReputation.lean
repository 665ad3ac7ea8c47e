/-
# The reputation of a deployer

`lookup_deployer_reputation` of `aats/ingestion/deployer_reputation.py` over the in-memory store: the
rows of the wallet, then those of its fingerprint, each in the order of their outcome
slots and strictly before the slot asked for.  The Parquet store fills the same two
indexes from a file.

The loop marks a mint as seen before it looks at the label, so what a mint counts as is what
the first of its rows says: `count_eq_firstsBy`.  Which row comes first depends on the
order of insertion where slots tie (`sortedByTime_snoc_eq`); `Earliest` are the rows
that come first in some order.
-/

import AatsSniper.Lib.Except
import AatsSniper.Lib.FirstSightings

namespace AatsSniper
namespace Ingestion

/-- `LaunchOutcomeLabel`. -/
inductive LaunchOutcomeLabel
  | survived
  | rugged
  | faded
  | censored
  deriving DecidableEq

/-- `_RESOLVED_LABELS`. -/
def resolvedLabels : List LaunchOutcomeLabel := [.survived, .rugged, .faded]

/-- The `ValueError`s of `DeployerLaunchOutcome`; the slots are not negative here. -/
inductive DeployerOutcomeError
  | creatorWallet
  | mint
  | outcomeNotAfterLaunch (outcomeSlot launchEventSlot : ℕ)
  deriving DecidableEq

/-- The arguments of `DeployerLaunchOutcome(...)`. -/
structure DeployerLaunchOutcomeParams where
  creatorWallet : String
  mint : String
  launchEventSlot : ℕ
  outcomeSlot : ℕ
  label : LaunchOutcomeLabel
  deployTemplateFingerprint : Option String := none
  deriving DecidableEq

/-- `DeployerLaunchOutcome.__post_init__`. -/
def DeployerLaunchOutcomeParams.postInit (p : DeployerLaunchOutcomeParams) :
    Except DeployerOutcomeError Unit := do
  require (p.creatorWallet ≠ "") .creatorWallet
  require (p.mint ≠ "") .mint
  require (p.launchEventSlot < p.outcomeSlot)
    (.outcomeNotAfterLaunch p.outcomeSlot p.launchEventSlot)

/-- `DeployerLaunchOutcome`. -/
structure DeployerLaunchOutcome extends DeployerLaunchOutcomeParams where
  valid : toDeployerLaunchOutcomeParams.postInit = .ok ()

/-- A dictionary of buckets; a key that is not there has an empty one. -/
abbrev OutcomeIndex := String → List DeployerLaunchOutcome

/-- The key of `bisect_left`. -/
abbrev DeployerLaunchOutcome.slot (o : DeployerLaunchOutcome) : ℕ := o.outcomeSlot

/-- `_insert_sorted(index, key, o)`. -/
def insertSorted (index : OutcomeIndex) (key : String) (o : DeployerLaunchOutcome) :
    OutcomeIndex :=
  Function.update index key (insertByTime DeployerLaunchOutcome.slot (index key) o)

/-- `_strictly_before(bucket, as_of_event_slot)`. -/
def strictlyBefore (bucket : List DeployerLaunchOutcome) (asOfEventSlot : ℕ) :
    List DeployerLaunchOutcome :=
  bucket.take (bisectLeft (bucket.map DeployerLaunchOutcome.slot) asOfEventSlot)

/-- `InMemoryDeployerOutcomeStore`. -/
structure InMemoryDeployerOutcomeStore where
  byWallet : OutcomeIndex := fun _ => []
  byFingerprint : OutcomeIndex := fun _ => []

/-- `add_outcome(o)`. -/
def InMemoryDeployerOutcomeStore.addOutcome (store : InMemoryDeployerOutcomeStore)
    (o : DeployerLaunchOutcome) : InMemoryDeployerOutcomeStore :=
  let store := { store with byWallet := insertSorted store.byWallet o.creatorWallet o }
  match o.deployTemplateFingerprint with
  | none => store
  | some fingerprint =>
      if fingerprint ≠ "" then
        { store with byFingerprint := insertSorted store.byFingerprint fingerprint o }
      else store

/-- `InMemoryDeployerOutcomeStore(outcomes)`. -/
def storeOf (outcomes : List DeployerLaunchOutcome) : InMemoryDeployerOutcomeStore :=
  outcomes.foldl InMemoryDeployerOutcomeStore.addOutcome {}

/-- `get_outcomes(creator_wallet, as_of_event_slot)`. -/
def InMemoryDeployerOutcomeStore.getOutcomes (store : InMemoryDeployerOutcomeStore)
    (creatorWallet : String) (asOfEventSlot : ℕ) : List DeployerLaunchOutcome :=
  strictlyBefore (store.byWallet creatorWallet) asOfEventSlot

/-- `get_outcomes_by_fingerprint(fingerprint, as_of_event_slot)`. -/
def InMemoryDeployerOutcomeStore.getOutcomesByFingerprint (store : InMemoryDeployerOutcomeStore)
    (fingerprint : String) (asOfEventSlot : ℕ) : List DeployerLaunchOutcome :=
  strictlyBefore (store.byFingerprint fingerprint) asOfEventSlot

/-- `DeployerReputationTally`; its check is a field. -/
structure DeployerReputationTally where
  creatorWallet : String
  deployTemplateFingerprint : Option String
  asOfEventSlot : ℕ
  priorLaunches : ℕ
  priorRugs : ℕ
  rugs_le : priorRugs ≤ priorLaunches

/-- The variables of the two loops. -/
structure TallyCount where
  seenMints : List String := []
  priorLaunches : ℕ := 0
  priorRugs : ℕ := 0
  rugs_le : priorRugs ≤ priorLaunches := by decide

/-- The body of the two loops. -/
def TallyCount.count (c : TallyCount) (o : DeployerLaunchOutcome) : TallyCount :=
  if o.mint ∈ c.seenMints then c
  else if o.label ∉ resolvedLabels then { c with seenMints := c.seenMints ++ [o.mint] }
  else if o.label = .rugged then
    { seenMints := c.seenMints ++ [o.mint]
      priorLaunches := c.priorLaunches + 1
      priorRugs := c.priorRugs + 1
      rugs_le := Nat.succ_le_succ c.rugs_le }
  else
    { c with
      seenMints := c.seenMints ++ [o.mint]
      priorLaunches := c.priorLaunches + 1
      rugs_le := Nat.le_succ_of_le c.rugs_le }

/-- The rows of the fingerprint, where there is one. -/
def fingerprintOutcomes (store : InMemoryDeployerOutcomeStore) (fingerprint : Option String)
    (asOfEventSlot : ℕ) : List DeployerLaunchOutcome :=
  match fingerprint with
  | none => []
  | some fingerprint =>
      if fingerprint ≠ "" then store.getOutcomesByFingerprint fingerprint asOfEventSlot else []

/-- `lookup_deployer_reputation(store, ...)`. -/
def lookupDeployerReputation (store : InMemoryDeployerOutcomeStore) (creatorWallet : String)
    (asOfEventSlot : ℕ) (deployTemplateFingerprint : Option String) : DeployerReputationTally :=
  let c := (store.getOutcomes creatorWallet asOfEventSlot).foldl TallyCount.count {}
  let c := (fingerprintOutcomes store deployTemplateFingerprint asOfEventSlot).foldl
    TallyCount.count c
  { creatorWallet
    deployTemplateFingerprint
    asOfEventSlot
    priorLaunches := c.priorLaunches
    priorRugs := c.priorRugs
    rugs_le := c.rugs_le }

/-- A row of a launch that resolved. -/
def DeployerLaunchOutcome.resolved (o : DeployerLaunchOutcome) : Bool :=
  decide (o.label ∈ resolvedLabels)

/-- A row of a launch that was a rug. -/
def DeployerLaunchOutcome.rugged (o : DeployerLaunchOutcome) : Bool :=
  decide (o.label = .rugged)

/-- A row of the wallet before the slot. -/
def WalletRow (creatorWallet : String) (asOfEventSlot : ℕ) (o : DeployerLaunchOutcome) : Prop :=
  o.creatorWallet = creatorWallet ∧ o.outcomeSlot < asOfEventSlot

/-- A row of the fingerprint, where there is one, before the slot. -/
def FingerprintRow (fingerprint : Option String) (asOfEventSlot : ℕ)
    (o : DeployerLaunchOutcome) : Prop :=
  fingerprint.getD "" ≠ "" ∧ o.deployTemplateFingerprint = fingerprint ∧
    o.outcomeSlot < asOfEventSlot

instance (creatorWallet : String) (asOfEventSlot : ℕ) (o : DeployerLaunchOutcome) :
    Decidable (WalletRow creatorWallet asOfEventSlot o) :=
  inferInstanceAs (Decidable (_ ∧ _))

instance (fingerprint : Option String) (asOfEventSlot : ℕ) (o : DeployerLaunchOutcome) :
    Decidable (FingerprintRow fingerprint asOfEventSlot o) :=
  inferInstanceAs (Decidable (_ ∧ _ ∧ _))

/-- The distinct mints with a row of a kind, for the wallet or its fingerprint, before the slot. -/
def mintsWith (kind : DeployerLaunchOutcome → Bool) (rows : List DeployerLaunchOutcome)
    (creatorWallet : String) (asOfEventSlot : ℕ) (fingerprint : Option String) : Finset String :=
  ((rows.filter fun o => decide (WalletRow creatorWallet asOfEventSlot o ∨
    FingerprintRow fingerprint asOfEventSlot o) && kind o).map (·.mint)).toFinset

/-- The same rows before the slot, in some order. -/
def SameRecord (asOfEventSlot : ℕ) (rows rows' : List DeployerLaunchOutcome) : Prop :=
  (rows.filter fun o => decide (o.outcomeSlot < asOfEventSlot)).Perm
    (rows'.filter fun o => decide (o.outcomeSlot < asOfEventSlot))

/-- The tally counts the mints, however the rows were inserted and whatever came at or after the
slot. -/
def CountsExactly (rows : List DeployerLaunchOutcome) (creatorWallet : String)
    (asOfEventSlot : ℕ) (fingerprint : Option String) : Prop :=
  ∀ rows', SameRecord asOfEventSlot rows rows' →
    let tally :=
      lookupDeployerReputation (storeOf rows') creatorWallet asOfEventSlot fingerprint
    tally.priorLaunches = (mintsWith DeployerLaunchOutcome.resolved rows creatorWallet
        asOfEventSlot fingerprint).card ∧
      tally.priorRugs = (mintsWith DeployerLaunchOutcome.rugged rows creatorWallet
        asOfEventSlot fingerprint).card

/-- Among the rows of a group with its mint, none is earlier. -/
def EarliestOf (group : DeployerLaunchOutcome → Prop) (rows : List DeployerLaunchOutcome)
    (o : DeployerLaunchOutcome) : Prop :=
  o ∈ rows ∧ group o ∧ ∀ b ∈ rows, group b → b.mint = o.mint → o.outcomeSlot ≤ b.outcomeSlot

/-- The earliest rows of a mint: those of the wallet, or where it has none those of the
fingerprint. -/
def Earliest (rows : List DeployerLaunchOutcome) (creatorWallet : String) (asOfEventSlot : ℕ)
    (fingerprint : Option String) (o : DeployerLaunchOutcome) : Prop :=
  EarliestOf (WalletRow creatorWallet asOfEventSlot) rows o ∨
    (∀ b ∈ rows, WalletRow creatorWallet asOfEventSlot b → b.mint ≠ o.mint) ∧
      EarliestOf (FingerprintRow fingerprint asOfEventSlot) rows o

/-- The earliest rows of a mint resolved where any of its rows did, and were rugs where any was. -/
def EarliestSpeaks (rows : List DeployerLaunchOutcome) (creatorWallet : String)
    (asOfEventSlot : ℕ) (fingerprint : Option String) : Prop :=
  ∀ o, Earliest rows creatorWallet asOfEventSlot fingerprint o →
    ∀ b ∈ rows, WalletRow creatorWallet asOfEventSlot b ∨
        FingerprintRow fingerprint asOfEventSlot b → b.mint = o.mint →
      (b.resolved = true → o.resolved = true) ∧ (b.rugged = true → o.rugged = true)

variable {rows rows' : List DeployerLaunchOutcome} {o b : DeployerLaunchOutcome}
  {creatorWallet : String} {asOfEventSlot : ℕ} {fingerprint : Option String}

/-- A row is inserted into one bucket. -/
theorem insertSorted_apply (index : OutcomeIndex) (key k : String) (o : DeployerLaunchOutcome) :
    insertSorted index key o k =
      if k = key then insertByTime DeployerLaunchOutcome.slot (index k) o else index k := by
  rw [insertSorted, Function.update_apply]
  by_cases hk : k = key
  · rw [if_pos hk, if_pos hk, hk]
  · rw [if_neg hk, if_neg hk]

theorem byWallet_addOutcome (store : InMemoryDeployerOutcomeStore) (o : DeployerLaunchOutcome) :
    (store.addOutcome o).byWallet = insertSorted store.byWallet o.creatorWallet o := by
  unfold InMemoryDeployerOutcomeStore.addOutcome
  dsimp only
  split
  · rfl
  · split_ifs <;> rfl

theorem byFingerprint_addOutcome (store : InMemoryDeployerOutcomeStore)
    (o : DeployerLaunchOutcome) {key : String} (hkey : key ≠ "") :
    (store.addOutcome o).byFingerprint key =
      if o.deployTemplateFingerprint = some key then
        insertByTime DeployerLaunchOutcome.slot (store.byFingerprint key) o
      else store.byFingerprint key := by
  unfold InMemoryDeployerOutcomeStore.addOutcome
  dsimp only
  split
  case h_1 h =>
    rw [h, if_neg (by simp)]
  case h_2 f h =>
    rw [h]
    by_cases hf : f = key
    · rw [if_pos (hf ▸ hkey), if_pos (by rw [hf])]
      exact (insertSorted_apply _ _ _ _).trans (if_pos hf.symm)
    · rw [if_neg fun h => hf (Option.some.inj h)]
      split_ifs
      · exact (insertSorted_apply _ _ _ _).trans (if_neg fun h => hf h.symm)
      · rfl

theorem storeOf_snoc (rows : List DeployerLaunchOutcome) (o : DeployerLaunchOutcome) :
    storeOf (rows ++ [o]) = (storeOf rows).addOutcome o := by
  rw [storeOf, List.foldl_append]
  rfl

/-- One row more of those that a bucket keeps. -/
theorem sortedByTime_filter_snoc (keeps : DeployerLaunchOutcome → Prop) [DecidablePred keeps]
    (rows : List DeployerLaunchOutcome) (o : DeployerLaunchOutcome) :
    sortedByTime DeployerLaunchOutcome.slot ((rows ++ [o]).filter fun x => decide (keeps x)) =
      if keeps o then insertByTime DeployerLaunchOutcome.slot (sortedByTime
        DeployerLaunchOutcome.slot (rows.filter fun x => decide (keeps x))) o
      else sortedByTime DeployerLaunchOutcome.slot (rows.filter fun x => decide (keeps x)) := by
  rw [List.filter_append]
  by_cases ho : keeps o
  · rw [if_pos ho, List.filter_cons_of_pos (by simpa using ho), List.filter_nil,
      sortedByTime_snoc]
  · rw [if_neg ho, List.filter_cons_of_neg (by simpa using ho), List.filter_nil, List.append_nil]

/-- The bucket of a wallet. -/
theorem byWallet_storeOf (rows : List DeployerLaunchOutcome) (wallet : String) :
    (storeOf rows).byWallet wallet = sortedByTime DeployerLaunchOutcome.slot
      (rows.filter fun o => decide (o.creatorWallet = wallet)) := by
  induction rows using List.reverseRecOn with
  | nil => rfl
  | append_singleton rows o ih =>
      rw [storeOf_snoc, byWallet_addOutcome, insertSorted_apply, ih, sortedByTime_filter_snoc]
      exact if_congr eq_comm rfl rfl

/-- The bucket of a fingerprint. -/
theorem byFingerprint_storeOf (rows : List DeployerLaunchOutcome) {key : String} (hkey : key ≠ "") :
    (storeOf rows).byFingerprint key = sortedByTime DeployerLaunchOutcome.slot
      (rows.filter fun o => decide (o.deployTemplateFingerprint = some key)) := by
  induction rows using List.reverseRecOn with
  | nil => rfl
  | append_singleton rows o ih =>
      rw [storeOf_snoc, byFingerprint_addOutcome _ _ hkey, ih, sortedByTime_filter_snoc]

/-- The rows of the wallet that the lookup goes through. -/
theorem mem_getOutcomes : o ∈ (storeOf rows).getOutcomes creatorWallet asOfEventSlot ↔
    o ∈ rows ∧ WalletRow creatorWallet asOfEventSlot o := by
  rw [InMemoryDeployerOutcomeStore.getOutcomes, strictlyBefore, byWallet_storeOf,
    mem_take_sortedByTime, List.mem_filter, decide_eq_true_eq, and_assoc]
  rfl

/-- The rows of the fingerprint that the lookup goes through. -/
theorem mem_fingerprintOutcomes :
    o ∈ fingerprintOutcomes (storeOf rows) fingerprint asOfEventSlot ↔
      o ∈ rows ∧ FingerprintRow fingerprint asOfEventSlot o := by
  unfold fingerprintOutcomes FingerprintRow
  cases fingerprint with
  | none => simp
  | some key =>
      dsimp only [Option.getD_some]
      by_cases hkey : key ≠ ""
      · rw [if_pos hkey, InMemoryDeployerOutcomeStore.getOutcomesByFingerprint, strictlyBefore,
          byFingerprint_storeOf _ hkey, mem_take_sortedByTime, List.mem_filter, decide_eq_true_eq,
          and_assoc]
        exact and_congr_right fun _ => (and_iff_right hkey).symm
      · rw [if_neg hkey]
        exact ⟨fun h => (List.not_mem_nil h).elim, fun h => absurd h.2.1 hkey⟩

/-- The rows of the two loops. -/
def walked (rows : List DeployerLaunchOutcome) (creatorWallet : String) (asOfEventSlot : ℕ)
    (fingerprint : Option String) : List DeployerLaunchOutcome :=
  (storeOf rows).getOutcomes creatorWallet asOfEventSlot ++
    fingerprintOutcomes (storeOf rows) fingerprint asOfEventSlot

/-- **The loops count the first row of every mint.** -/
theorem count_eq_firstsBy (os : List DeployerLaunchOutcome) :
    let c := os.foldl TallyCount.count {}
    (∀ m, m ∈ c.seenMints ↔ m ∈ os.map (·.mint)) ∧
      c.priorLaunches = (firstsBy (·.mint) os).countP DeployerLaunchOutcome.resolved ∧
      c.priorRugs = (firstsBy (·.mint) os).countP DeployerLaunchOutcome.rugged := by
  induction os using List.reverseRecOn with
  | nil => exact ⟨fun m => Iff.rfl, rfl, rfl⟩
  | append_singleton os o ih =>
      obtain ⟨hseen, hlaunches, hrugs⟩ := ih
      rw [List.foldl_append, List.foldl_cons, List.foldl_nil, firstsBy_snoc]
      generalize os.foldl TallyCount.count {} = c at hseen hlaunches hrugs
      unfold TallyCount.count
      have hmints : ∀ m, m ∈ c.seenMints ++ [o.mint] ↔ m ∈ (os ++ [o]).map (·.mint) := by
        intro m
        rw [List.map_append, List.mem_append, List.mem_append, hseen]
        rfl
      by_cases hmem : o.mint ∈ c.seenMints
      · rw [if_pos hmem, if_pos ((hseen _).1 hmem)]
        refine ⟨fun m => ?_, hlaunches, hrugs⟩
        rw [← hmints, List.mem_append, List.mem_singleton]
        exact ⟨.inl, fun h => h.elim id fun h => h ▸ hmem⟩
      · rw [if_neg hmem, if_neg fun h => hmem ((hseen _).2 h), List.countP_append,
          List.countP_append, List.countP_singleton, List.countP_singleton]
        cases hlabel : o.label <;>
          simp [DeployerLaunchOutcome.resolved, DeployerLaunchOutcome.rugged, resolvedLabels,
            hlabel, hlaunches, hrugs, hmints]

/-- What the lookup counts. -/
theorem lookup_eq_countP (rows : List DeployerLaunchOutcome) (creatorWallet : String)
    (asOfEventSlot : ℕ) (fingerprint : Option String) :
    let tally := lookupDeployerReputation (storeOf rows) creatorWallet asOfEventSlot fingerprint
    let firsts := firstsBy (·.mint) (walked rows creatorWallet asOfEventSlot fingerprint)
    tally.priorLaunches = firsts.countP DeployerLaunchOutcome.resolved ∧
      tally.priorRugs = firsts.countP DeployerLaunchOutcome.rugged := by
  have hcount := count_eq_firstsBy (walked rows creatorWallet asOfEventSlot fingerprint)
  rw [walked, List.foldl_append] at hcount
  exact hcount.2

theorem mem_walked : o ∈ walked rows creatorWallet asOfEventSlot fingerprint ↔
    o ∈ rows ∧ (WalletRow creatorWallet asOfEventSlot o ∨
      FingerprintRow fingerprint asOfEventSlot o) := by
  rw [walked, List.mem_append, mem_getOutcomes, mem_fingerprintOutcomes, and_or_left]

theorem ascending_getOutcomes : Ascending DeployerLaunchOutcome.slot
    ((storeOf rows).getOutcomes creatorWallet asOfEventSlot) := by
  rw [InMemoryDeployerOutcomeStore.getOutcomes, strictlyBefore, byWallet_storeOf]
  exact (ascending_sortedByTime _).sublist (List.take_sublist _ _)

theorem ascending_fingerprintOutcomes : Ascending DeployerLaunchOutcome.slot
    (fingerprintOutcomes (storeOf rows) fingerprint asOfEventSlot) := by
  unfold fingerprintOutcomes
  split
  · exact List.Pairwise.nil
  · split_ifs with hkey
    · rw [InMemoryDeployerOutcomeStore.getOutcomesByFingerprint, strictlyBefore,
        byFingerprint_storeOf _ hkey]
      exact (ascending_sortedByTime _).sublist (List.take_sublist _ _)
    · exact List.Pairwise.nil

/-- The first row of a mint is one of its earliest. -/
theorem earliest_of_mem_firstsBy
    (h : o ∈ firstsBy (·.mint) (walked rows creatorWallet asOfEventSlot fingerprint)) :
    Earliest rows creatorWallet asOfEventSlot fingerprint o := by
  rcases mem_firstsBy_append.1 h with h | ⟨hwallet, h⟩
  · obtain ⟨hrow, hgroup⟩ := mem_getOutcomes.1 (mem_of_mem_firstsBy h)
    refine .inl ⟨hrow, hgroup, fun b hb hgroupb hmint => ?_⟩
    exact ascending_getOutcomes.time_le_of_mem_firstsBy h (mem_getOutcomes.2 ⟨hb, hgroupb⟩) hmint
  · obtain ⟨hrow, hgroup⟩ := mem_fingerprintOutcomes.1 (mem_of_mem_firstsBy h)
    refine .inr ⟨fun b hb hgroupb => hwallet b (mem_getOutcomes.2 ⟨hb, hgroupb⟩), hrow, hgroup,
      fun b hb hgroupb hmint => ?_⟩
    exact ascending_fingerprintOutcomes.time_le_of_mem_firstsBy h
      (mem_fingerprintOutcomes.2 ⟨hb, hgroupb⟩) hmint

/-- An earliest row is the first of its mint where it is inserted last. -/
theorem mem_firstsBy_of_earliest
    (h : Earliest (rows ++ [o]) creatorWallet asOfEventSlot fingerprint o) :
    o ∈ firstsBy (·.mint) (walked (rows ++ [o]) creatorWallet asOfEventSlot fingerprint) := by
  refine mem_firstsBy_append.2 (h.imp ?_ ?_)
  · rintro ⟨-, ⟨hwallet, hslot⟩, hleast⟩
    rw [InMemoryDeployerOutcomeStore.getOutcomes, strictlyBefore, byWallet_storeOf,
      List.filter_append, List.filter_cons_of_pos (by simpa using hwallet), List.filter_nil]
    refine mem_firstsBy_take_snoc hslot fun b hb hbslot hmint => ?_
    obtain ⟨hb, hbwallet⟩ := List.mem_filter.1 hb
    exact hleast b (List.mem_append_left _ hb) ⟨of_decide_eq_true hbwallet, hbslot⟩ hmint
  · rintro ⟨hnone, -, ⟨hkey, hfingerprint, hslot⟩, hleast⟩
    constructor
    · intro b hb
      obtain ⟨hb, hgroup⟩ := mem_getOutcomes.1 hb
      exact hnone b hb hgroup
    · cases fingerprint with
      | none => exact absurd rfl hkey
      | some key =>
          have hkey : key ≠ "" := hkey
          rw [fingerprintOutcomes, if_pos hkey,
            InMemoryDeployerOutcomeStore.getOutcomesByFingerprint, strictlyBefore,
            byFingerprint_storeOf _ hkey, List.filter_append,
            List.filter_cons_of_pos (by simpa using hfingerprint), List.filter_nil]
          refine mem_firstsBy_take_snoc hslot fun b hb hbslot hmint => ?_
          obtain ⟨hb, hbkey⟩ := List.mem_filter.1 hb
          exact hleast b (List.mem_append_left _ hb) ⟨hkey, of_decide_eq_true hbkey, hbslot⟩ hmint

/-- What the lookup may read is in both records. -/
theorem SameRecord.mem_iff (h : SameRecord asOfEventSlot rows rows')
    (ho : o.outcomeSlot < asOfEventSlot) : o ∈ rows ↔ o ∈ rows' := by
  have hmem := List.Perm.mem_iff (a := o) h
  rw [List.mem_filter, List.mem_filter, decide_eq_true_eq] at hmem
  simpa [ho] using hmem

theorem slot_lt_of_row (h : WalletRow creatorWallet asOfEventSlot o ∨
    FingerprintRow fingerprint asOfEventSlot o) : o.outcomeSlot < asOfEventSlot :=
  h.elim (·.2) (·.2.2)

theorem SameRecord.earliestOf_iff (h : SameRecord asOfEventSlot rows rows')
    {group : DeployerLaunchOutcome → Prop} (hgroup : ∀ b, group b → b.outcomeSlot < asOfEventSlot) :
    EarliestOf group rows o ↔ EarliestOf group rows' o := by
  unfold EarliestOf
  rw [← and_assoc, ← and_assoc]
  refine and_congr ?_ (forall_congr' fun b => ?_)
  · exact and_congr_left fun ho => h.mem_iff (hgroup o ho)
  · constructor
    · exact fun hle hb hgb => hle ((h.mem_iff (hgroup b hgb)).2 hb) hgb
    · exact fun hle hb hgb => hle ((h.mem_iff (hgroup b hgb)).1 hb) hgb

/-- Which rows are earliest is a matter of the rows before the slot. -/
theorem SameRecord.earliest_iff (h : SameRecord asOfEventSlot rows rows') :
    Earliest rows creatorWallet asOfEventSlot fingerprint o ↔
      Earliest rows' creatorWallet asOfEventSlot fingerprint o := by
  refine or_congr (h.earliestOf_iff fun b hb => hb.2) (and_congr (forall_congr' fun b => ?_)
    (h.earliestOf_iff fun b hb => hb.2.2))
  constructor
  · exact fun hne hb hgroup => hne ((h.mem_iff hgroup.2).2 hb) hgroup
  · exact fun hne hb hgroup => hne ((h.mem_iff hgroup.2).1 hb) hgroup

/-- The mints with a row of a kind, among the rows that the loops go through. -/
theorem SameRecord.mintsWith_eq (h : SameRecord asOfEventSlot rows rows')
    (kind : DeployerLaunchOutcome → Bool) :
    mintsWith kind rows creatorWallet asOfEventSlot fingerprint =
      (((walked rows' creatorWallet asOfEventSlot fingerprint).filter kind).map
        (·.mint)).toFinset := by
  ext m
  simp only [mintsWith, List.mem_toFinset, List.mem_map, List.mem_filter, Bool.and_eq_true,
    decide_eq_true_eq, mem_walked]
  refine exists_congr fun o => and_congr_left fun _ => ?_
  rw [← and_assoc]
  exact and_congr_left fun _ => and_congr_left fun hrow => h.mem_iff (slot_lt_of_row hrow)

/-- The count of a kind is right where the first row of every mint with a row of it is of it. -/
theorem SameRecord.countP_eq_iff (h : SameRecord asOfEventSlot rows rows')
    (kind : DeployerLaunchOutcome → Bool) :
    (firstsBy (·.mint) (walked rows' creatorWallet asOfEventSlot fingerprint)).countP kind =
        (mintsWith kind rows creatorWallet asOfEventSlot fingerprint).card ↔
      ∀ o ∈ firstsBy (·.mint) (walked rows' creatorWallet asOfEventSlot fingerprint),
        ∀ b ∈ rows, WalletRow creatorWallet asOfEventSlot b ∨
          FingerprintRow fingerprint asOfEventSlot b → b.mint = o.mint →
            kind b = true → kind o = true := by
  rw [h.mintsWith_eq, countP_firstsBy_eq_iff]
  constructor
  · intro hfirst o ho b hb hrow hmint hkind
    have hb' := (h.mem_iff (slot_lt_of_row hrow)).1 hb
    exact hfirst b (mem_walked.2 ⟨hb', hrow⟩) hkind o ho hmint.symm
  · intro hfirst b hb hkind o ho hmint
    obtain ⟨hb, hrow⟩ := mem_walked.1 hb
    exact hfirst o ho b ((h.mem_iff (slot_lt_of_row hrow)).2 hb) hrow hmint.symm hkind

/-- **The tally counts the mints of a deployer exactly** where the earliest rows of a mint speak for
all its rows.  A mint counts as what its first row says, and which row is first among those of one
slot is decided by the order of insertion; so whatever one of its rows says, the rows that may come
first have to say. -/
theorem counts_exactly_iff_earliest_speaks (rows : List DeployerLaunchOutcome)
    (creatorWallet : String) (asOfEventSlot : ℕ) (fingerprint : Option String) :
    CountsExactly rows creatorWallet asOfEventSlot fingerprint ↔
      EarliestSpeaks rows creatorWallet asOfEventSlot fingerprint := by
  constructor
  · intro hcounts o ho b hb hrow hmint
    -- of the orders of insertion, the one that has this earliest row last
    have hmem : o ∈ rows := ho.elim (·.1) (·.2.1)
    obtain ⟨xs, ys, rfl⟩ := List.append_of_mem hmem
    have hperm : (xs ++ o :: ys).Perm (xs ++ ys ++ [o]) :=
      List.perm_middle.trans (List.perm_append_singleton o (xs ++ ys)).symm
    have hsame : SameRecord asOfEventSlot (xs ++ o :: ys) (xs ++ ys ++ [o]) := hperm.filter _
    have hfirst := mem_firstsBy_of_earliest (hsame.earliest_iff.1 ho)
    obtain ⟨hlaunches, hrugs⟩ := hcounts _ hsame
    rw [(lookup_eq_countP _ _ _ _).1, hsame.countP_eq_iff] at hlaunches
    rw [(lookup_eq_countP _ _ _ _).2, hsame.countP_eq_iff] at hrugs
    exact ⟨hlaunches o hfirst b hb hrow hmint, hrugs o hfirst b hb hrow hmint⟩
  · intro hspeaks rows' hsame
    have hfirst : ∀ o ∈ firstsBy (·.mint) (walked rows' creatorWallet asOfEventSlot fingerprint),
        Earliest rows creatorWallet asOfEventSlot fingerprint o :=
      fun o ho => hsame.earliest_iff.2 (earliest_of_mem_firstsBy ho)
    constructor
    · rw [(lookup_eq_countP _ _ _ _).1, hsame.countP_eq_iff]
      exact fun o ho b hb hrow hmint => (hspeaks o (hfirst o ho) b hb hrow hmint).1
    · rw [(lookup_eq_countP _ _ _ _).2, hsame.countP_eq_iff]
      exact fun o ho b hb hrow hmint => (hspeaks o (hfirst o ho) b hb hrow hmint).2

/-- A launch that could not be resolved at first and was a rug later counts as neither. -/
def censoredThenRugged : List DeployerLaunchOutcome :=
  [⟨⟨"wallet", "mint", 1, 5, .censored, none⟩, rfl⟩, ⟨⟨"wallet", "mint", 1, 8, .rugged, none⟩, rfl⟩]

theorem reputation_misses_a_rug :
    ¬ ∀ rows creatorWallet asOfEventSlot fingerprint,
      CountsExactly rows creatorWallet asOfEventSlot fingerprint := by
  intro h
  have hcount := (h censoredThenRugged "wallet" 10 none censoredThenRugged (List.Perm.refl _)).2
  exact absurd hcount (by decide)

end Ingestion
end AatsSniper
