/-
# Reloads of the denylist

Runs of `DenyAllowWatcher`: the construction and any number of calls of `maybe_reload`, each with
its own clock, `force`, stat and text.

A call loads a document if it is not throttled, the file is there and changed, and its text decodes.
`wanted` is the last of the loaded documents that is well shaped, and the watcher denies exactly the
addresses in it (`denies_exactly`), as long as no document was loaded that a default let through.
An entry that yields no address is skipped, and with it a key that an earlier file denied; a
falsy section is taken for an absent one (`malformed_file_loosens`).
-/

import AatsSniper.Gate.Denylist
import Mathlib.Data.List.Induction

namespace AatsSniper
namespace Gate
namespace DenyAllowWatcher

section Runs

variable (depthLimit : ℕ) (str : Json → CodePoints)

/-- The text that `_load` parses, if it comes to that. -/
def opened (w : DenyAllowWatcher) (force : Bool) (file : FileView) : Option CodePoints :=
  match file.stat with
  | .found mtimeNs size =>
      if force = false ∧ mtimeNs = w.loadedMtimeNs ∧ size = w.loadedSize then none else file.text
  | _ => none

/-- The document that `_load` loads: that of the text, where it decodes. -/
def document (w : DenyAllowWatcher) (force : Bool) (file : FileView) : Option Json :=
  (w.opened force file).bind fun text => (Json.decodeText depthLimit text).toOption

/-- The document that a call of `maybe_reload` loads. -/
def loaded (w : DenyAllowWatcher) (call : ReloadCall) : Option Json :=
  if call.force = false ∧ call.now - w.lastStatAt < w.reloadThrottleS then none
  else w.document depthLimit call.force call.file

/-- The watcher after a call, whether it raised or not. -/
def next (w : DenyAllowWatcher) (call : ReloadCall) : DenyAllowWatcher :=
  (w.maybeReload depthLimit str call).1

/-- The documents that the calls load, one after the other. -/
def documents (w : DenyAllowWatcher) : List ReloadCall → List Json
  | [] => []
  | call :: calls =>
      (w.loaded depthLimit call).toList ++ documents (w.next depthLimit str call) calls

/-- The last document that is well shaped. -/
def wanted (docs : List Json) : Option Json := (docs.filter wellShaped).getLast?

/-- A watcher that denies exactly what the last well-shaped document of some says. -/
structure DeniesExactly (w : DenyAllowWatcher) (docs : List Json) : Prop where
  creators : w.snapshot.deniedCreators =
    ((wanted docs).map (deniedIn "creators" "wallet")).getD ∅
  mints : w.snapshot.deniedMints = ((wanted docs).map (deniedIn "mints" "mint")).getD ∅

variable {depthLimit str} {w : DenyAllowWatcher}

theorem wanted_append (docs docs' : List Json) :
    wanted (docs ++ docs') = (wanted docs').or (wanted docs) := by
  rw [wanted, List.filter_append, List.getLast?_append]
  rfl

/-- What a load makes of the snapshot: it parses the text that it opens, if it opens one. -/
theorem load_cases (depthLimit : ℕ) (str : Json → CodePoints) (w : DenyAllowWatcher)
    (force : Bool) (file : FileView) :
    (w.opened force file = none ∧ (w.load depthLimit str force file).1.snapshot = w.snapshot) ∨
    ∃ text mtimeNs size, w.opened force file = some text ∧
      ((∃ snap, parseSnapshot depthLimit str text mtimeNs size = .ok snap ∧
          (w.load depthLimit str force file).1.snapshot = snap) ∨
        ∃ e, parseSnapshot depthLimit str text mtimeNs size = .error e ∧
          (w.load depthLimit str force file).1.snapshot = w.snapshot) := by
  unfold load opened
  cases file.stat with
  | notFound => exact Or.inl ⟨rfl, rfl⟩
  | osError => exact Or.inl ⟨rfl, rfl⟩
  | found mtimeNs size =>
      by_cases hsame : force = false ∧ mtimeNs = w.loadedMtimeNs ∧ size = w.loadedSize
      · simp only [if_pos hsame]
        exact Or.inl ⟨trivial, trivial⟩
      · simp only [if_neg hsame]
        cases file.text with
        | none => exact Or.inl ⟨rfl, rfl⟩
        | some text =>
            refine Or.inr ⟨text, mtimeNs, size, rfl, ?_⟩
            dsimp only
            cases hparse : parseSnapshot depthLimit str text mtimeNs size with
            | ok snap => exact Or.inl ⟨snap, rfl, rfl⟩
            | error e =>
                refine Or.inr ⟨e, rfl, ?_⟩
                dsimp only
                split_ifs <;> rfl

theorem parseSnapshot_of_error {text : CodePoints} {e : Json.LoadError}
    (h : Json.decodeText depthLimit text = .error e) (mtimeNs size : ℤ) :
    parseSnapshot depthLimit str text mtimeNs size = .error (.json e) := by
  rw [parseSnapshot, h]
  rfl

theorem parseSnapshot_of_ok {text : CodePoints} {doc : Json}
    (h : Json.decodeText depthLimit text = .ok doc) (mtimeNs size : ℤ) :
    parseSnapshot depthLimit str text mtimeNs size = snapshotOf str doc mtimeNs size := by
  rw [parseSnapshot, h]
  rfl

/-- What a load makes of the snapshot, from the document that it loads. -/
theorem load_document (depthLimit : ℕ) (str : Json → CodePoints) (w : DenyAllowWatcher)
    (force : Bool) (file : FileView) :
    (w.document depthLimit force file = none ∧
      (w.load depthLimit str force file).1.snapshot = w.snapshot) ∨
    ∃ doc mtimeNs size, w.document depthLimit force file = some doc ∧
      ((∃ snap, snapshotOf str doc mtimeNs size = .ok snap ∧
          (w.load depthLimit str force file).1.snapshot = snap) ∨
        ∃ e, snapshotOf str doc mtimeNs size = .error e ∧
          (w.load depthLimit str force file).1.snapshot = w.snapshot) := by
  unfold document
  rcases load_cases depthLimit str w force file with
    ⟨hopened, hkept⟩ | ⟨text, mtimeNs, size, hopened, hparse⟩
  · exact Or.inl ⟨by rw [hopened]; rfl, hkept⟩
  · rw [hopened, Option.bind_some]
    cases hdecode : Json.decodeText depthLimit text with
    | error e =>
        refine Or.inl ⟨rfl, ?_⟩
        rw [parseSnapshot_of_error hdecode] at hparse
        rcases hparse with ⟨snap, hok, -⟩ | ⟨e', -, hkept⟩
        · cases hok
        · exact hkept
    | ok doc =>
        rw [parseSnapshot_of_ok hdecode] at hparse
        exact Or.inr ⟨doc, mtimeNs, size, rfl, hparse⟩

/-- A load that decodes no document, or one that is refused, leaves the snapshot. -/
theorem load_kept {force : Bool} {file : FileView}
    (h : ∀ doc ∈ w.document depthLimit force file, wellShaped doc = false ∧ slips doc = false) :
    (w.load depthLimit str force file).1.snapshot = w.snapshot := by
  rcases load_document depthLimit str w force file with
    ⟨-, hkept⟩ | ⟨doc, mtimeNs, size, hdoc, ⟨snap, hok, -⟩ | ⟨e, -, hkept⟩⟩
  · exact hkept
  · obtain ⟨hshape, hslip⟩ := h doc hdoc
    obtain ⟨message, herror⟩ := snapshotOf_error str hshape hslip mtimeNs size
    rw [herror] at hok
    cases hok
  · exact hkept

/-- A load of a well-shaped document takes its addresses over. -/
theorem load_of_wellShaped {force : Bool} {file : FileView} {doc : Json}
    (h : w.document depthLimit force file = some doc) (hshape : wellShaped doc = true) :
    (w.load depthLimit str force file).1.snapshot.deniedCreators =
        deniedIn "creators" "wallet" doc ∧
      (w.load depthLimit str force file).1.snapshot.deniedMints = deniedIn "mints" "mint" doc := by
  rcases load_document depthLimit str w force file with
    ⟨hnone, -⟩ | ⟨doc', mtimeNs, size, hdoc, hsnap⟩
  · rw [hnone] at h
    cases h
  · obtain rfl : doc' = doc := Option.some.inj (hdoc.symm.trans h)
    obtain ⟨snap, hok, hdenied⟩ := snapshotOf_eq_ok str hshape mtimeNs size
    rw [hok] at hsnap
    rcases hsnap with ⟨snap', hsame, hload⟩ | ⟨e, herror, -⟩
    · rw [hload, ← Except.ok.inj hsame]
      exact hdenied
    · cases herror

/-- One load. -/
theorem DeniesExactly.load {docs : List Json} (h : DeniesExactly w docs) (force : Bool)
    (file : FileView) (hslip : ∀ doc ∈ w.document depthLimit force file, slips doc = false) :
    DeniesExactly (w.load depthLimit str force file).1
      (docs ++ (w.document depthLimit force file).toList) := by
  cases hdoc : w.document depthLimit force file with
  | none =>
      have hload : (w.load depthLimit str force file).1.snapshot = w.snapshot :=
        load_kept (by simp [hdoc])
      rw [Option.toList_none, List.append_nil]
      exact ⟨by rw [hload, h.creators], by rw [hload, h.mints]⟩
  | some doc =>
      rw [Option.toList_some]
      cases hshape : wellShaped doc with
      | false =>
          have hkeep : wanted (docs ++ [doc]) = wanted docs := by
            rw [wanted_append]
            simp [wanted, hshape]
          have hload : (w.load depthLimit str force file).1.snapshot = w.snapshot := by
            refine load_kept fun doc' hdoc' => ?_
            obtain rfl : doc = doc' := Option.some.inj (hdoc.symm.trans hdoc')
            exact ⟨hshape, hslip doc hdoc⟩
          exact ⟨by rw [hload, hkeep, h.creators], by rw [hload, hkeep, h.mints]⟩
      | true =>
          have htake : wanted (docs ++ [doc]) = some doc := by
            rw [wanted_append]
            simp [wanted, hshape]
          refine ⟨?_, ?_⟩
          · rw [(load_of_wellShaped hdoc hshape).1, htake]
            rfl
          · rw [(load_of_wellShaped hdoc hshape).2, htake]
            rfl

/-- One call of `maybe_reload`. -/
theorem DeniesExactly.next {docs : List Json} (h : DeniesExactly w docs) (call : ReloadCall)
    (hslip : ∀ doc ∈ w.loaded depthLimit call, slips doc = false) :
    DeniesExactly (DenyAllowWatcher.next depthLimit str w call)
      (docs ++ (w.loaded depthLimit call).toList) := by
  unfold DenyAllowWatcher.next maybeReload
  unfold loaded at hslip ⊢
  split_ifs with hthrottled
  · rw [Option.toList_none, List.append_nil]
    exact h
  · rw [if_neg hthrottled] at hslip
    have hstamped : DeniesExactly { w with lastStatAt := call.now } docs := ⟨h.creators, h.mints⟩
    exact hstamped.load call.force call.file hslip

/-- Any number of calls. -/
theorem DeniesExactly.foldl {docs : List Json} (h : DeniesExactly w docs) (calls : List ReloadCall)
    (hslip : ∀ doc ∈ w.documents depthLimit str calls, slips doc = false) :
    DeniesExactly (calls.foldl (DenyAllowWatcher.next depthLimit str) w)
      (docs ++ w.documents depthLimit str calls) := by
  induction calls generalizing w docs with
  | nil =>
      rw [documents, List.append_nil]
      exact h
  | cons call calls ih =>
      rw [documents] at hslip ⊢
      rw [← List.append_assoc]
      refine ih (h.next call fun doc hdoc => hslip doc ?_) fun doc hdoc => hslip doc ?_
      · exact List.mem_append_left _ (Option.mem_toList.2 hdoc)
      · exact List.mem_append_right _ hdoc

/-- The watcher that is constructed, and its state after the calls. -/
def run (depthLimit : ℕ) (str : Json → CodePoints) (reloadThrottleS now : ℚ) (file : FileView)
    (calls : List ReloadCall) : DenyAllowWatcher :=
  calls.foldl (DenyAllowWatcher.next depthLimit str)
    (postInit depthLimit str reloadThrottleS now file).1

/-- The documents that the construction and the calls load. -/
def history (depthLimit : ℕ) (str : Json → CodePoints) (reloadThrottleS now : ℚ) (file : FileView)
    (calls : List ReloadCall) : List Json :=
  ((initial reloadThrottleS now).document depthLimit true file).toList ++
    (postInit depthLimit str reloadThrottleS now file).1.documents depthLimit str calls

theorem deniesExactly_run {reloadThrottleS now : ℚ} {file : FileView} {calls : List ReloadCall}
    (hslip : ∀ doc ∈ history depthLimit str reloadThrottleS now file calls, slips doc = false) :
    DeniesExactly (run depthLimit str reloadThrottleS now file calls)
      (history depthLimit str reloadThrottleS now file calls) := by
  have hinitial : DeniesExactly (initial reloadThrottleS now) [] := ⟨rfl, rfl⟩
  have hstarted : DeniesExactly (postInit depthLimit str reloadThrottleS now file).1
      ([] ++ ((initial reloadThrottleS now).document depthLimit true file).toList) :=
    hinitial.load true file fun doc hdoc =>
      hslip doc (List.mem_append_left _ (Option.mem_toList.2 hdoc))
  exact hstarted.foldl calls fun doc hdoc => hslip doc (List.mem_append_right _ hdoc)

theorem has_getD_iff {denied : Json → Finset CodePoints} {doc : Option Json} {key : CodePoints} :
    DenyAllowSnapshot.has ((doc.map denied).getD ∅) (some key) = true ↔
      ∃ d ∈ doc, key ∈ denied d := by
  cases doc with
  | none => simp [DenyAllowSnapshot.has]
  | some d => simp [DenyAllowSnapshot.has]

/-- **A bad file does not loosen the denylist.**  As long as no document was loaded that a default
let through, the watcher denies exactly the addresses in the last well-shaped document; and a call
that loads none, or one that is not well shaped, leaves the whole snapshot. -/
theorem denies_exactly (depthLimit : ℕ) (str : Json → CodePoints) (reloadThrottleS now : ℚ)
    (file : FileView) (calls : List ReloadCall)
    (hslip : ∀ doc ∈ history depthLimit str reloadThrottleS now file calls, slips doc = false) :
    (∀ creator, (run depthLimit str reloadThrottleS now file calls).snapshot.isCreatorDenied
        (some creator) = true ↔
      ∃ doc ∈ wanted (history depthLimit str reloadThrottleS now file calls),
        creator ∈ deniedIn "creators" "wallet" doc) ∧
    (∀ mint, (run depthLimit str reloadThrottleS now file calls).snapshot.isMintDenied
        (some mint) = true ↔
      ∃ doc ∈ wanted (history depthLimit str reloadThrottleS now file calls),
        mint ∈ deniedIn "mints" "mint" doc) ∧
    ∀ call, (∀ doc ∈ (run depthLimit str reloadThrottleS now file calls).loaded depthLimit call,
        wellShaped doc = false ∧ slips doc = false) →
      ((run depthLimit str reloadThrottleS now file calls).next depthLimit str call).snapshot =
        (run depthLimit str reloadThrottleS now file calls).snapshot := by
  have hdenies := deniesExactly_run hslip
  refine ⟨fun creator => ?_, fun mint => ?_, fun call hcall => ?_⟩
  · rw [DenyAllowSnapshot.isCreatorDenied, hdenies.creators]
    exact has_getD_iff
  · rw [DenyAllowSnapshot.isMintDenied, hdenies.mints]
    exact has_getD_iff
  · unfold loaded at hcall
    unfold DenyAllowWatcher.next maybeReload
    split_ifs with hthrottled
    · rfl
    · rw [if_neg hthrottled] at hcall
      exact load_kept hcall

/-- A file of that size that was read. -/
def fileOf (text : String) (size : ℤ) : FileView := ⟨.found 0 size, some (codePoints text)⟩

/-- A file that denies the creator `A`. -/
def denyingA : FileView := fileOf "\x7b\"denylist\": \x7b\"creators\": [\"A\"]\x7d\x7d" 1

/-- Ten seconds later, a file that is cut off: `A` is still denied. -/
theorem denies_after_cut :
    (run 9 (fun _ => []) 2 0 denyingA [⟨10, false, fileOf "\x7b\"denylist\": \x7b" 2⟩]
      ).snapshot.isCreatorDenied (some (codePoints "A")) = true := by
  refine ((denies_exactly 9 (fun _ => []) 2 0 denyingA _ ?_).1 _).2 ?_
  · decide +kernel
  · decide +kernel

/-- Ten seconds later, a file with a slip in the entry, and a file with a list for a section: none
of them is well formed, and after each `A` is not denied. -/
theorem malformed_file_loosens :
    (run 9 (fun _ => []) 2 0 denyingA []).snapshot.isCreatorDenied (some (codePoints "A")) = true ∧
    ∀ text ∈ ["\x7b\"denylist\": \x7b\"creators\": [\x7b\"walet\": \"A\"\x7d]\x7d\x7d",
        "\x7b\"denylist\": []\x7d"],
      (history 9 (fun _ => []) 2 0 denyingA [⟨10, false, fileOf text 2⟩]).map wellFormed =
        [true, false] ∧
      (run 9 (fun _ => []) 2 0 denyingA [⟨10, false, fileOf text 2⟩]).snapshot.isCreatorDenied
        (some (codePoints "A")) = false := by
  decide +kernel

end Runs

end DenyAllowWatcher
end Gate
end AatsSniper
