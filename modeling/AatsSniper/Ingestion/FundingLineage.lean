/-
# The funding lineage registry

`InMemoryFundingLineageRegistry` of `aats/ingestion/funding_lineage.py`: for every creator wallet
its launches, and for every funding source the launches it funded, each in the order of
their slots.

Both record functions keep the first sighting of a key that arrives, whatever its slot, so a
sighting at or after `t` that arrives first hides an earlier one from the lookups as of
`t` (`hiddenBefore`): two runs with the same past agree where they hide as much.
-/

import AatsSniper.Lib.FirstSightings
import AatsSniper.Lib.Except
import Mathlib.Data.List.Induction

namespace AatsSniper
namespace Ingestion

/-- `_LaunchSighting`. -/
structure LaunchSighting where
  mint : String
  eventSlot : ℕ
  deriving DecidableEq

/-- `_FundingSourceSighting`. -/
structure FundingSourceSighting where
  creatorWallet : String
  mint : String
  eventSlot : ℕ
  deriving DecidableEq

/-- `(creator_wallet, mint)`. -/
def FundingSourceSighting.key (s : FundingSourceSighting) : String × String :=
  (s.creatorWallet, s.mint)

/-- What `_check_str` raises. -/
inductive FundingLineageError
  | emptyText (name : String)
  deriving DecidableEq

/-- `InMemoryFundingLineageRegistry`: `_by_wallet` with `_wallet_mints_seen`, and
`_by_funding_source` with `_funding_source_keys_seen`. -/
structure FundingLineageRegistry where
  byWallet : String → FirstSightings LaunchSighting String := fun _ => {}
  byFundingSource : String → FirstSightings FundingSourceSighting (String × String) := fun _ => {}

/-- A call of a record function; `_check_int` refuses negative slots. -/
inductive RecordCall
  | launch (creatorWallet mint : String) (eventSlot : ℕ)
  | fundingSource (fundingSourceWallet creatorWallet mint : String) (eventSlot : ℕ)
  deriving DecidableEq

/-- `record_launch(...)`. -/
def FundingLineageRegistry.recordLaunch (r : FundingLineageRegistry) (creatorWallet mint : String)
    (eventSlot : ℕ) : Except FundingLineageError FundingLineageRegistry := do
  require (creatorWallet ≠ "") (.emptyText "creator_wallet")
  require (mint ≠ "") (.emptyText "mint")
  let sighting : LaunchSighting := ⟨mint, eventSlot⟩
  let bucket :=
    (r.byWallet creatorWallet).record LaunchSighting.mint LaunchSighting.eventSlot sighting
  return { r with byWallet := Function.update r.byWallet creatorWallet bucket }

/-- `record_funding_source(...)`. -/
def FundingLineageRegistry.recordFundingSource (r : FundingLineageRegistry)
    (fundingSourceWallet creatorWallet mint : String) (eventSlot : ℕ) :
    Except FundingLineageError FundingLineageRegistry := do
  require (fundingSourceWallet ≠ "") (.emptyText "funding_source_wallet")
  require (creatorWallet ≠ "") (.emptyText "creator_wallet")
  require (mint ≠ "") (.emptyText "mint")
  let sighting : FundingSourceSighting := ⟨creatorWallet, mint, eventSlot⟩
  let bucket := (r.byFundingSource fundingSourceWallet).record FundingSourceSighting.key
    FundingSourceSighting.eventSlot sighting
  return { r with byFundingSource := Function.update r.byFundingSource fundingSourceWallet bucket }

/-- `prior_launch_count(...)`. -/
def FundingLineageRegistry.priorLaunchCount (r : FundingLineageRegistry) (creatorWallet : String)
    (asOfEventSlot : ℕ) : ℕ :=
  bisectLeft ((r.byWallet creatorWallet).bucket.map (·.eventSlot)) asOfEventSlot

/-- `funding_source_seen_before(...)`. -/
def FundingLineageRegistry.fundingSourceSeenBefore (r : FundingLineageRegistry)
    (fundingSourceWallet creatorWallet : String) (asOfEventSlot : ℕ) : Bool :=
  let bucket := (r.byFundingSource fundingSourceWallet).bucket
  let idx := bisectLeft (bucket.map (·.eventSlot)) asOfEventSlot
  (bucket.take idx).any fun sighting => sighting.creatorWallet != creatorWallet

/-- The registry after a call.  One that raises leaves it. -/
def FundingLineageRegistry.serve (r : FundingLineageRegistry) (call : RecordCall) :
    FundingLineageRegistry :=
  match call with
  | .launch creatorWallet mint eventSlot =>
      (r.recordLaunch creatorWallet mint eventSlot).toOption.getD r
  | .fundingSource source creatorWallet mint eventSlot =>
      (r.recordFundingSource source creatorWallet mint eventSlot).toOption.getD r

/-- The registry after the calls. -/
def registryAfter (calls : List RecordCall) : FundingLineageRegistry :=
  calls.foldl FundingLineageRegistry.serve {}

/-- The slot of a call. -/
def RecordCall.eventSlot : RecordCall → ℕ
  | .launch _ _ eventSlot => eventSlot
  | .fundingSource _ _ _ eventSlot => eventSlot

/-- The launch of the wallet that a call records. -/
def RecordCall.launchOf (wallet : String) : RecordCall → Option LaunchSighting
  | .launch creatorWallet mint eventSlot =>
      if creatorWallet = wallet ∧ creatorWallet ≠ "" ∧ mint ≠ "" then some ⟨mint, eventSlot⟩
      else none
  | .fundingSource _ _ _ _ => none

/-- The sighting of the source that a call records. -/
def RecordCall.fundingOf (source : String) : RecordCall → Option FundingSourceSighting
  | .launch _ _ _ => none
  | .fundingSource fundingSourceWallet creatorWallet mint eventSlot =>
      if fundingSourceWallet = source ∧ fundingSourceWallet ≠ "" ∧ creatorWallet ≠ "" ∧
          mint ≠ "" then
        some ⟨creatorWallet, mint, eventSlot⟩
      else none

/-- The launches of a wallet, in the order they were recorded. -/
def launchesOf (wallet : String) (calls : List RecordCall) : List LaunchSighting :=
  calls.filterMap (RecordCall.launchOf wallet)

/-- The sightings of a source, in the order they were recorded. -/
def fundingsOf (source : String) (calls : List RecordCall) : List FundingSourceSighting :=
  calls.filterMap (RecordCall.fundingOf source)

/-- The launches before `t` that are hidden: a later sighting of the mint was recorded first. -/
def hiddenLaunches (t : ℕ) (wallet : String) (calls : List RecordCall) : List LaunchSighting :=
  hiddenBefore LaunchSighting.mint LaunchSighting.eventSlot t (launchesOf wallet calls)

/-- The sightings of a source before `t` that are hidden. -/
def hiddenFundings (t : ℕ) (source : String) (calls : List RecordCall) :
    List FundingSourceSighting :=
  hiddenBefore FundingSourceSighting.key FundingSourceSighting.eventSlot t (fundingsOf source calls)

/-- Every sighting of other creators before `t` is hidden. -/
def OthersHidden (t : ℕ) (source creator : String) (calls : List RecordCall) : Prop :=
  ∀ s ∈ fundingsOf source calls, s.eventSlot < t → s.creatorWallet ≠ creator →
    ∃ h ∈ hiddenFundings t source calls, h.key = s.key

variable {r : FundingLineageRegistry} {calls calls' : List RecordCall} {t : ℕ}

theorem toOption_recordLaunch (wallet mint : String) (eventSlot : ℕ) :
    (r.recordLaunch wallet mint eventSlot).toOption =
      if wallet ≠ "" ∧ mint ≠ "" then
        some { r with byWallet := Function.update r.byWallet wallet ((r.byWallet wallet).record
          LaunchSighting.mint LaunchSighting.eventSlot ⟨mint, eventSlot⟩) }
      else none := by
  rw [FundingLineageRegistry.recordLaunch, toOption_require_bind, toOption_require_bind, ite_and]
  rfl

theorem toOption_recordFundingSource (source creator mint : String) (eventSlot : ℕ) :
    (r.recordFundingSource source creator mint eventSlot).toOption =
      if source ≠ "" ∧ creator ≠ "" ∧ mint ≠ "" then
        some { r with byFundingSource := Function.update r.byFundingSource source (
          (r.byFundingSource source).record FundingSourceSighting.key
            FundingSourceSighting.eventSlot ⟨creator, mint, eventSlot⟩) }
      else none := by
  rw [FundingLineageRegistry.recordFundingSource, toOption_require_bind, toOption_require_bind,
    toOption_require_bind, ite_and, ite_and]
  rfl

/-- A call records at most one launch of a wallet. -/
theorem byWallet_serve (call : RecordCall) (wallet : String) :
    (r.serve call).byWallet wallet =
      match call.launchOf wallet with
      | some s => (r.byWallet wallet).record LaunchSighting.mint LaunchSighting.eventSlot s
      | none => r.byWallet wallet := by
  cases call with
  | launch creatorWallet mint eventSlot =>
      rw [FundingLineageRegistry.serve, toOption_recordLaunch, RecordCall.launchOf]
      by_cases hvalid : creatorWallet ≠ "" ∧ mint ≠ ""
      · rw [if_pos hvalid, Option.getD_some]
        dsimp only
        rw [Function.update_apply]
        by_cases hwallet : wallet = creatorWallet
        · rw [if_pos hwallet, if_pos ⟨hwallet.symm, hvalid⟩, hwallet]
        · rw [if_neg hwallet, if_neg fun h => hwallet h.1.symm]
      · rw [if_neg hvalid, if_neg fun h => hvalid h.2]
        rfl
  | fundingSource source creatorWallet mint eventSlot =>
      rw [FundingLineageRegistry.serve, toOption_recordFundingSource]
      split_ifs <;> rfl

/-- A call records at most one sighting of a source. -/
theorem byFundingSource_serve (call : RecordCall) (source : String) :
    (r.serve call).byFundingSource source =
      match call.fundingOf source with
      | some s => (r.byFundingSource source).record FundingSourceSighting.key
          FundingSourceSighting.eventSlot s
      | none => r.byFundingSource source := by
  cases call with
  | launch creatorWallet mint eventSlot =>
      rw [FundingLineageRegistry.serve, toOption_recordLaunch]
      split_ifs <;> rfl
  | fundingSource funder creatorWallet mint eventSlot =>
      rw [FundingLineageRegistry.serve, toOption_recordFundingSource, RecordCall.fundingOf]
      by_cases hvalid : funder ≠ "" ∧ creatorWallet ≠ "" ∧ mint ≠ ""
      · rw [if_pos hvalid, Option.getD_some]
        dsimp only
        rw [Function.update_apply]
        by_cases hsource : source = funder
        · rw [if_pos hsource, if_pos ⟨hsource.symm, hvalid⟩, hsource]
        · rw [if_neg hsource, if_neg fun h => hsource h.1.symm]
      · rw [if_neg hvalid, if_neg fun h => hvalid h.2]
        rfl

/-- **The registry holds the first sighting of every key.** -/
theorem registry_holds (calls : List RecordCall) (wallet source : String) :
    ((registryAfter calls).byWallet wallet).Holds LaunchSighting.mint LaunchSighting.eventSlot
        (launchesOf wallet calls) ∧
      ((registryAfter calls).byFundingSource source).Holds FundingSourceSighting.key
        FundingSourceSighting.eventSlot (fundingsOf source calls) := by
  induction calls using List.reverseRecOn with
  | nil =>
      constructor
      · exact @holds_empty LaunchSighting String LaunchSighting.eventSlot _ LaunchSighting.mint
      · exact @holds_empty FundingSourceSighting (String × String)
          FundingSourceSighting.eventSlot _ FundingSourceSighting.key
  | append_singleton calls call ih =>
      have hregistry : registryAfter (calls ++ [call]) = (registryAfter calls).serve call := by
        simp [registryAfter]
      rw [hregistry, byWallet_serve, byFundingSource_serve, launchesOf, fundingsOf,
        List.filterMap_append, List.filterMap_append]
      constructor
      · cases hlaunch : call.launchOf wallet with
        | none => simpa [launchesOf, hlaunch] using ih.1
        | some s => simpa [launchesOf, hlaunch] using ih.1.record s
      · cases hfunding : call.fundingOf source with
        | none => simpa [fundingsOf, hfunding] using ih.2
        | some s => simpa [fundingsOf, hfunding] using ih.2.record s

/-- The launches a lookup counts. -/
theorem priorLaunchCount_eq (calls : List RecordCall) (wallet : String) (t : ℕ) :
    (registryAfter calls).priorLaunchCount wallet t =
      (visibleBefore LaunchSighting.mint LaunchSighting.eventSlot t
        (launchesOf wallet calls)).length :=
  (registry_holds calls wallet "").1.bisectLeft t

/-- A source was seen before, unless every sighting of another creator is hidden. -/
theorem seenBefore_eq_false_iff (calls : List RecordCall) (source creator : String) (t : ℕ) :
    (registryAfter calls).fundingSourceSeenBefore source creator t = false ↔
      OthersHidden t source creator calls := by
  have hholds := (registry_holds calls "" source).2
  have hvisible : (registryAfter calls).fundingSourceSeenBefore source creator t = false ↔
      ∀ s ∈ visibleBefore FundingSourceSighting.key FundingSourceSighting.eventSlot t
        (fundingsOf source calls), s.creatorWallet = creator := by
    simp only [FundingLineageRegistry.fundingSourceSeenBefore, List.any_eq_false, hholds.mem_take,
      bne_iff_ne, ne_eq, not_not]
  rw [hvisible]
  constructor
  · intro h s hs hst hcreator
    rcases visible_or_hidden FundingSourceSighting.key hs hst with ⟨v, hv, hkey⟩ | hhidden
    · have heq : v.creatorWallet = s.creatorWallet := congrArg Prod.fst hkey
      exact absurd (heq.symm.trans (h v hv)) hcreator
    · exact hhidden
  · intro h v hv
    by_contra hcreator
    obtain ⟨hmem, hvt⟩ := mem_visibleBefore.1 hv
    obtain ⟨hid, hhid, hkey⟩ := h v (mem_of_mem_firstsBy hmem) hvt hcreator
    exact key_ne_of_visible_hidden hv hhid hkey.symm

/-- The same calls before `t`. -/
def SamePastCalls (t : ℕ) (calls calls' : List RecordCall) : Prop :=
  ∀ call : RecordCall, call.eventSlot < t → (call ∈ calls ↔ call ∈ calls')

theorem samePast_launches (h : SamePastCalls t calls calls') (wallet : String) :
    SamePast LaunchSighting.eventSlot t (launchesOf wallet calls) (launchesOf wallet calls') := by
  intro s hs
  simp only [launchesOf, List.mem_filterMap]
  refine exists_congr fun call => and_congr_left fun hcall => h call ?_
  cases call with
  | launch creatorWallet mint eventSlot =>
      simp only [RecordCall.launchOf, Option.ite_none_right_eq_some, Option.some.injEq] at hcall
      rw [← hcall.2] at hs
      exact hs
  | fundingSource source creatorWallet mint eventSlot => cases hcall

theorem samePast_fundings (h : SamePastCalls t calls calls') (source : String) :
    SamePast FundingSourceSighting.eventSlot t (fundingsOf source calls)
      (fundingsOf source calls') := by
  intro s hs
  simp only [fundingsOf, List.mem_filterMap]
  refine exists_congr fun call => and_congr_left fun hcall => h call ?_
  cases call with
  | launch creatorWallet mint eventSlot => cases hcall
  | fundingSource source creatorWallet mint eventSlot =>
      simp only [RecordCall.fundingOf, Option.ite_none_right_eq_some, Option.some.injEq] at hcall
      rw [← hcall.2] at hs
      exact hs

/-- Nothing before `t` is hidden: of every key sighted before `t`, a sighting before `t` was
recorded first. -/
def NothingHidden (t : ℕ) (calls : List RecordCall) : Prop :=
  (∀ wallet, hiddenLaunches t wallet calls = []) ∧ ∀ source, hiddenFundings t source calls = []

/-- **The lookups as of `t` of two runs with the same past agree exactly where they hide as
much**: of each wallet the same number of launches, and of each source all sightings of other
creators or not all.  So they agree where nothing is hidden in either. -/
theorem lineage_lookups_agree_iff (t : ℕ) (calls calls' : List RecordCall)
    (hpast : SamePastCalls t calls calls') :
    ((∀ wallet, (registryAfter calls).priorLaunchCount wallet t =
        (registryAfter calls').priorLaunchCount wallet t) ↔
      ∀ wallet, (hiddenLaunches t wallet calls).length =
        (hiddenLaunches t wallet calls').length) ∧
    ((∀ source creator, (registryAfter calls).fundingSourceSeenBefore source creator t =
        (registryAfter calls').fundingSourceSeenBefore source creator t) ↔
      ∀ source creator, OthersHidden t source creator calls ↔
        OthersHidden t source creator calls') ∧
    (NothingHidden t calls → NothingHidden t calls' → ∀ wallet source creator,
      (registryAfter calls).priorLaunchCount wallet t =
          (registryAfter calls').priorLaunchCount wallet t ∧
        (registryAfter calls).fundingSourceSeenBefore source creator t =
          (registryAfter calls').fundingSourceSeenBefore source creator t) := by
  have hcount : ∀ wallet, (registryAfter calls).priorLaunchCount wallet t =
      (registryAfter calls').priorLaunchCount wallet t ↔
      (hiddenLaunches t wallet calls).length = (hiddenLaunches t wallet calls').length := by
    intro wallet
    rw [priorLaunchCount_eq, priorLaunchCount_eq]
    exact length_visible_eq_iff (samePast_launches hpast wallet)
  have hseen : ∀ source creator, (registryAfter calls).fundingSourceSeenBefore source creator t =
      (registryAfter calls').fundingSourceSeenBefore source creator t ↔
      (OthersHidden t source creator calls ↔ OthersHidden t source creator calls') := by
    intro source creator
    rw [← seenBefore_eq_false_iff, ← seenBefore_eq_false_iff]
    generalize (registryAfter calls).fundingSourceSeenBefore source creator t = a
    generalize (registryAfter calls').fundingSourceSeenBefore source creator t = b
    cases a <;> cases b <;> decide
  refine ⟨forall_congr' hcount, forall_congr' fun source => forall_congr' (hseen source), ?_⟩
  rintro ⟨hlaunches, hfundings⟩ ⟨hlaunches', hfundings'⟩ wallet source creator
  refine ⟨(hcount wallet).2 (by rw [hlaunches, hlaunches']), (hseen source creator).2 ?_⟩
  -- nothing hidden: both say that there is no sighting of another creator
  have hpastFundings := samePast_fundings hpast source
  constructor
  · intro h s hs hst hne
    obtain ⟨hid, hmem, -⟩ := h s ((hpastFundings s hst).2 hs) hst hne
    rw [hfundings] at hmem
    cases hmem
  · intro h s hs hst hne
    obtain ⟨hid, hmem, -⟩ := h s ((hpastFundings s hst).1 hs) hst hne
    rw [hfundings'] at hmem
    cases hmem

theorem hiddenLaunches_eq_nil {wallet : String} (h : ∀ call ∈ calls, call.launchOf wallet = none) :
    hiddenLaunches t wallet calls = [] := by
  rw [hiddenLaunches, launchesOf, List.filterMap_eq_nil_iff.2 h]
  rfl

theorem hiddenFundings_eq_nil {source : String}
    (h : ∀ call ∈ calls, call.fundingOf source = none) : hiddenFundings t source calls = [] := by
  rw [hiddenFundings, fundingsOf, List.filterMap_eq_nil_iff.2 h]
  rfl

/-- A launch and a funding at 5, in one order and in the other, and in the one run again at 9. -/
def launchThenFunding : List RecordCall :=
  [.launch "dev" "a" 5, .fundingSource "bank" "dev" "a" 5, .launch "dev" "a" 9,
    .fundingSource "bank" "dev" "a" 9]

def fundingThenLaunch : List RecordCall := [.fundingSource "bank" "dev" "a" 5, .launch "dev" "a" 5]

theorem nothingHidden_sample :
    NothingHidden 7 launchThenFunding ∧ NothingHidden 7 fundingThenLaunch := by
  refine ⟨⟨fun wallet => ?_, fun source => ?_⟩, fun wallet => ?_, fun source => ?_⟩
  · by_cases hwallet : "dev" = wallet
    · subst hwallet
      decide +kernel
    · exact hiddenLaunches_eq_nil (by simp [RecordCall.launchOf, launchThenFunding, hwallet])
  · by_cases hsource : "bank" = source
    · subst hsource
      decide +kernel
    · exact hiddenFundings_eq_nil (by simp [RecordCall.fundingOf, launchThenFunding, hsource])
  · by_cases hwallet : "dev" = wallet
    · subst hwallet
      decide +kernel
    · exact hiddenLaunches_eq_nil (by simp [RecordCall.launchOf, fundingThenLaunch, hwallet])
  · by_cases hsource : "bank" = source
    · subst hsource
      decide +kernel
    · exact hiddenFundings_eq_nil (by simp [RecordCall.fundingOf, fundingThenLaunch, hsource])

/-- As of 7 both runs count one launch, and have seen the source fund another creator. -/
theorem lineage_lookups_agree_clean :
    ((registryAfter launchThenFunding).priorLaunchCount "dev" 7 =
        (registryAfter fundingThenLaunch).priorLaunchCount "dev" 7 ∧
      (registryAfter fundingThenLaunch).priorLaunchCount "dev" 7 = 1) ∧
    (registryAfter launchThenFunding).fundingSourceSeenBefore "bank" "new" 7 =
        (registryAfter fundingThenLaunch).fundingSourceSeenBefore "bank" "new" 7 ∧
      (registryAfter fundingThenLaunch).fundingSourceSeenBefore "bank" "new" 7 = true := by
  have hpast : SamePastCalls 7 launchThenFunding fundingThenLaunch := by
    intro call hcall
    simp only [launchThenFunding, fundingThenLaunch, List.mem_cons, List.not_mem_nil, or_false]
    constructor
    · rintro (rfl | rfl | rfl | rfl)
      · exact .inr rfl
      · exact .inl rfl
      · exact absurd hcall (by decide)
      · exact absurd hcall (by decide)
    · rintro (rfl | rfl)
      · exact .inr (.inl rfl)
      · exact .inl rfl
  obtain ⟨hhidden, hhidden'⟩ := nothingHidden_sample
  obtain ⟨hcount, hseen⟩ := (lineage_lookups_agree_iff 7 _ _ hpast).2.2 hhidden hhidden' "dev" "bank"
    "new"
  exact ⟨⟨hcount, by decide +kernel⟩, hseen, by decide +kernel⟩

/-- A later launch of the same token that arrives first hides the earlier one, and so does a later
funding: the lookups as of 7 see what came at 10. -/
theorem lineage_lookup_sees_future :
    SamePastCalls 7 [.launch "dev" "a" 10, .launch "dev" "a" 5] [.launch "dev" "a" 5] ∧
      (registryAfter [.launch "dev" "a" 10, .launch "dev" "a" 5]).priorLaunchCount "dev" 7 = 0 ∧
      (registryAfter [.launch "dev" "a" 5]).priorLaunchCount "dev" 7 = 1 ∧
    SamePastCalls 7 [.fundingSource "bank" "dev" "a" 10, .fundingSource "bank" "dev" "a" 5]
        [.fundingSource "bank" "dev" "a" 5] ∧
      (registryAfter [.fundingSource "bank" "dev" "a" 10,
        .fundingSource "bank" "dev" "a" 5]).fundingSourceSeenBefore "bank" "new" 7 = false ∧
      (registryAfter [.fundingSource "bank" "dev" "a" 5]).fundingSourceSeenBefore
        "bank" "new" 7 = true := by
  refine ⟨?_, by decide +kernel, by decide +kernel, ?_, by decide +kernel, by decide +kernel⟩
  · intro call hcall
    simp only [List.mem_cons, List.not_mem_nil, or_false, or_iff_right_iff_imp]
    rintro rfl
    exact absurd hcall (by decide)
  · intro call hcall
    simp only [List.mem_cons, List.not_mem_nil, or_false, or_iff_right_iff_imp]
    rintro rfl
    exact absurd hcall (by decide)

end Ingestion
end AatsSniper
