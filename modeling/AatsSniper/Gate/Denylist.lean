/-
# The denylist file and its watcher

`aats/risk/blacklist.py`: the snapshot of denied and allowed addresses, `parse_snapshot`, and
`DenyAllowWatcher` with its throttled reload.

A document is accepted if its root is an object, its sections, where present, are objects and their
lists, where present, are lists (`snapshotOf_eq_ok`); an entry that yields no address is skipped.
Any other document is refused (`snapshotOf_error`), but for those the two defaults let through: a
section that is falsy, and a list that is `null` (`slips`).

`str(version)` and the depth at which the decoder raises `RecursionError` are parameters.
-/

import AatsSniper.Gate.PretradeGate
import AatsSniper.Lib.PyValue
import Mathlib.Data.Finset.Card

namespace AatsSniper
namespace Gate

/-- `DenyAllowSnapshot`. -/
structure DenyAllowSnapshot where
  deniedCreators : Finset CodePoints
  deniedMints : Finset CodePoints
  allowedCreators : Finset CodePoints
  allowedMints : Finset CodePoints
  sourceMtimeNs : ℤ := 0
  sourceSize : ℤ := 0
  version : CodePoints := []

namespace DenyAllowSnapshot

/-- `empty()`. -/
def empty : DenyAllowSnapshot := ⟨∅, ∅, ∅, ∅, 0, 0, []⟩

/-- A key that is given and among some addresses. -/
def has (addresses : Finset CodePoints) (key : Option CodePoints) : Bool :=
  key.any fun key => decide (key ∈ addresses)

/-- `is_creator_denied(creator)`. -/
def isCreatorDenied (s : DenyAllowSnapshot) : Option CodePoints → Bool := has s.deniedCreators

/-- `is_mint_denied(mint)`. -/
def isMintDenied (s : DenyAllowSnapshot) : Option CodePoints → Bool := has s.deniedMints

/-- The number of denied keys. -/
def denied (s : DenyAllowSnapshot) : ℕ := s.deniedCreators.card + s.deniedMints.card

/-- The number of allowed keys. -/
def allowed (s : DenyAllowSnapshot) : ℕ := s.allowedCreators.card + s.allowedMints.card

end DenyAllowSnapshot

/-- What `parse_snapshot` raises. -/
inductive DenylistError
  | json (e : Json.LoadError)
  | valueError (message : String)
  deriving DecidableEq

/-- `type(x).__name__` of a decoded value. -/
def typeName : Json → String
  | .null => "NoneType"
  | .bool _ => "bool"
  | .int _ => "int"
  | .float _ => "float"
  | .str _ => "str"
  | .arr _ => "list"
  | .obj _ => "dict"

/-- A text with something in it. -/
def nonEmpty (s : CodePoints) : Option CodePoints := if s = [] then none else some s

/-- The address an entry yields, if it yields one. -/
def entryAddress (key : String) : Json → Option CodePoints
  | .str s => nonEmpty (PyText.strip s)
  | .obj entry =>
      match Json.get entry (codePoints key) with
      | some (.str raw) => nonEmpty (PyText.strip raw)
      | _ => none
  | _ => none

/-- `_coerce_str_set(items, key)`; `none` is an absent member. -/
def coerceStrSet (items : Option Json) (key : String) :
    Except DenylistError (Finset CodePoints) :=
  match items with
  | none => .ok ∅
  | some .null => .ok ∅
  | some (.arr entries) => .ok (entries.filterMap (entryAddress key)).toFinset
  | some items =>
      .error (.valueError s!"expected a list for '{key}' entries, got {typeName items}")

/-- `x or {}`. -/
def orEmpty : Option Json → Json
  | none => .obj []
  | some x => if x.truthy then x else .obj []

/-- `parse_snapshot`, from the decoded document on. -/
def snapshotOf (str : Json → CodePoints) (doc : Json) (mtimeNs size : ℤ) :
    Except DenylistError DenyAllowSnapshot :=
  match doc with
  | .obj doc =>
      match orEmpty (Json.get doc (codePoints "denylist")),
          orEmpty (Json.get doc (codePoints "allowlist")) with
      | .obj deny, .obj allow => do
          let deniedCreators ← coerceStrSet (Json.get deny (codePoints "creators")) "wallet"
          let deniedMints ← coerceStrSet (Json.get deny (codePoints "mints")) "mint"
          let allowedCreators ← coerceStrSet (Json.get allow (codePoints "creators")) "wallet"
          let allowedMints ← coerceStrSet (Json.get allow (codePoints "mints")) "mint"
          return ⟨deniedCreators, deniedMints, allowedCreators, allowedMints, mtimeNs, size,
            str (Json.getD doc "version" (.str []))⟩
      | _, _ => .error (.valueError "'denylist' and 'allowlist' must be JSON objects")
  | _ => .error (.valueError "denylist root must be a JSON object")

/-- `parse_snapshot(raw_text, mtime_ns, size)`. -/
def parseSnapshot (depthLimit : ℕ) (str : Json → CodePoints) (rawText : CodePoints)
    (mtimeNs size : ℤ) : Except DenylistError DenyAllowSnapshot := do
  let doc ← (Json.decodeText depthLimit rawText).mapError DenylistError.json
  snapshotOf str doc mtimeNs size

/-- `path.stat()`. -/
inductive FileStat
  | notFound
  | osError
  | found (mtimeNs size : ℤ)

/-- What a reload finds at the path: the stat, and the text that is read, `none` where reading or
decoding it as UTF-8 raises. -/
structure FileView where
  stat : FileStat
  text : Option CodePoints

/-- A call of `on_denylist_reload`. -/
structure ReloadReport where
  denied : ℕ
  allowed : ℕ
  ok : Bool

/-- `DenyAllowWatcher`, with what it told its telemetry sink. -/
structure DenyAllowWatcher where
  reloadThrottleS : ℚ
  snapshot : DenyAllowSnapshot
  lastStatAt : ℚ
  loadedMtimeNs : ℤ
  loadedSize : ℤ
  reports : List ReloadReport

namespace DenyAllowWatcher

/-- `check_keys(creator, mint)`. -/
def checkKeys (w : DenyAllowWatcher) (creator mint : Option CodePoints) : Option RedFlagHit :=
  if w.snapshot.isCreatorDenied creator then some { flag := .creatorDenylisted }
  else if w.snapshot.isMintDenied mint then some { flag := .mintDenylisted }
  else none

/-- A snapshot told to the telemetry sink. -/
def report (w : DenyAllowWatcher) (ok : Bool) : DenyAllowWatcher :=
  { w with reports := w.reports ++ [⟨w.snapshot.denied, w.snapshot.allowed, ok⟩] }

/-- The exceptions `_load` does not catch: `RecursionError` is no `ValueError`. -/
def uncaught : DenylistError → Bool
  | .json e => decide (e = .recursionError ∨ e = .outOfFuel)
  | .valueError _ => false

section Reload

variable (depthLimit : ℕ) (str : Json → CodePoints)

/-- `_load(force)`. -/
def load (w : DenyAllowWatcher) (force : Bool) (file : FileView) :
    DenyAllowWatcher × Except DenylistError Bool :=
  match file.stat with
  | .notFound => (w, .ok false)
  | .osError => (w, .ok false)
  | .found mtimeNs size =>
      if force = false ∧ mtimeNs = w.loadedMtimeNs ∧ size = w.loadedSize then (w, .ok false)
      else
        match file.text with
        | none => (w.report false, .ok false)
        | some text =>
            match parseSnapshot depthLimit str text mtimeNs size with
            | .ok newSnap =>
                (report { w with snapshot := newSnap, loadedMtimeNs := mtimeNs, loadedSize := size }
                  true, .ok true)
            | .error e => if uncaught e then (w, .error e) else (w.report false, .ok false)

/-- A call of `maybe_reload`: the clock, `force`, and what is at the path. -/
structure ReloadCall where
  now : ℚ
  force : Bool
  file : FileView

/-- `maybe_reload(force)`. -/
def maybeReload (w : DenyAllowWatcher) (call : ReloadCall) :
    DenyAllowWatcher × Except DenylistError Bool :=
  if call.force = false ∧ call.now - w.lastStatAt < w.reloadThrottleS then (w, .ok false)
  else load depthLimit str { w with lastStatAt := call.now } call.force call.file

/-- The fields before `__post_init__`, with the clock stamped. -/
def initial (reloadThrottleS now : ℚ) : DenyAllowWatcher where
  reloadThrottleS := reloadThrottleS
  snapshot := .empty
  lastStatAt := now
  loadedMtimeNs := -1
  loadedSize := -1
  reports := []

/-- `__post_init__`. -/
def postInit (reloadThrottleS now : ℚ) (file : FileView) :
    DenyAllowWatcher × Except DenylistError Bool :=
  load depthLimit str (initial reloadThrottleS now) true file

end Reload

end DenyAllowWatcher

/-- A list member: absent, or a list of such entries. -/
def listOk (entryOk : Json → Bool) : Option Json → Bool
  | none => true
  | some (.arr entries) => entries.all entryOk
  | some _ => false

/-- A section: absent, or an object with such lists. -/
def sectionOk (entryOk : String → Json → Bool) : Option Json → Bool
  | none => true
  | some (.obj inner) =>
      listOk (entryOk "wallet") (Json.get inner (codePoints "creators")) &&
        listOk (entryOk "mint") (Json.get inner (codePoints "mints"))
  | some _ => false

/-- A document: an object with such sections. -/
def documentOk (entryOk : String → Json → Bool) : Json → Bool
  | .obj doc =>
      sectionOk entryOk (Json.get doc (codePoints "denylist")) &&
        sectionOk entryOk (Json.get doc (codePoints "allowlist"))
  | _ => false

/-- Well formed, down to every entry. -/
def wellFormed : Json → Bool := documentOk fun key entry => (entryAddress key entry).isSome

/-- Well formed, whatever the entries of the lists are. -/
def wellShaped : Json → Bool := documentOk fun _ _ => true

/-- A list member that is `null`. -/
def nullList : Option Json → Bool
  | some .null => true
  | _ => false

/-- A section that a default replaces, or one with a list that a default replaces. -/
def sectionSlips : Option Json → Bool
  | none => false
  | some (.obj inner) =>
      nullList (Json.get inner (codePoints "creators")) ||
        nullList (Json.get inner (codePoints "mints"))
  | some x => !x.truthy

/-- A document with a falsy section that is no object, or with a list that is `null`. -/
def slips : Json → Bool
  | .obj doc =>
      sectionSlips (Json.get doc (codePoints "denylist")) ||
        sectionSlips (Json.get doc (codePoints "allowlist"))
  | _ => false

/-- The addresses of a list member. -/
def addresses (key : String) : Option Json → Finset CodePoints
  | some (.arr entries) => (entries.filterMap (entryAddress key)).toFinset
  | _ => ∅

/-- The members of a section. -/
def sectionMembers : Option Json → List (CodePoints × Json)
  | some (.obj inner) => inner
  | _ => []

/-- The addresses under `denylist` in a document. -/
def deniedIn (list key : String) : Json → Finset CodePoints
  | .obj doc =>
      addresses key
        (Json.get (sectionMembers (Json.get doc (codePoints "denylist"))) (codePoints list))
  | _ => ∅

section Documents

variable {items : Option Json}

theorem coerceStrSet_of_listOk (h : listOk (fun _ => true) items = true) (key : String) :
    coerceStrSet items key = .ok (addresses key items) := by
  match items with
  | none => rfl
  | some (.arr entries) => rfl
  | some .null | some (.bool _) | some (.int _) | some (.float _) | some (.str _)
  | some (.obj _) => cases h

theorem coerceStrSet_eq_ok {key : String} {out : Finset CodePoints}
    (h : coerceStrSet items key = .ok out) (hnull : nullList items = false) :
    listOk (fun _ => true) items = true := by
  match items with
  | none => rfl
  | some (.arr entries) => simp [listOk]
  | some .null => cases hnull
  | some (.bool _) | some (.int _) | some (.float _) | some (.str _) | some (.obj _) => cases h

theorem orEmpty_of_sectionOk {entryOk : String → Json → Bool} (h : sectionOk entryOk items = true) :
    orEmpty items = .obj (sectionMembers items) := by
  match items with
  | none => rfl
  | some (.obj []) => rfl
  | some (.obj (m :: inner)) => rfl
  | some .null | some (.bool _) | some (.int _) | some (.float _) | some (.str _)
  | some (.arr _) => cases h

/-- A list that no default let through is refused with a `ValueError` unless it is a list. -/
theorem coerceStrSet_cases (items : Option Json) (key : String) :
    (∃ out, coerceStrSet items key = .ok out) ∨
      ∃ message, coerceStrSet items key = .error (.valueError message) := by
  match items with
  | none | some .null | some (.arr entries) => exact Or.inl ⟨_, rfl⟩
  | some (.bool _) | some (.int _) | some (.float _) | some (.str _) | some (.obj _) =>
      exact Or.inr ⟨_, rfl⟩

/-- A section that is let through is an object, unless a default let it through. -/
theorem sectionMembers_of_orEmpty {inner : List (CodePoints × Json)}
    (h : orEmpty items = .obj inner) (hslip : sectionSlips items = false) :
    sectionMembers items = inner ∧ (items = none ∨ items = some (.obj inner)) := by
  match items with
  | none =>
      obtain rfl : [] = inner := by simpa [orEmpty] using h
      exact ⟨rfl, Or.inl rfl⟩
  | some (.obj []) =>
      obtain rfl : [] = inner := by simpa [orEmpty, Json.truthy] using h
      exact ⟨rfl, Or.inr rfl⟩
  | some (.obj (m :: members)) =>
      obtain rfl : m :: members = inner := by simpa [orEmpty, Json.truthy] using h
      exact ⟨rfl, Or.inr rfl⟩
  | some .null => cases hslip
  | some (.bool b) => cases b <;> simp_all [orEmpty, sectionSlips, Json.truthy]
  | some (.int _) | some (.float _) | some (.str _) | some (.arr _) =>
      simp_all [orEmpty, sectionSlips]

/-- The lists of a section that no default let through are lists. -/
theorem sectionOk_of_coerce {inner : List (CodePoints × Json)} {creators mints : Finset CodePoints}
    (h : orEmpty items = .obj inner) (hslip : sectionSlips items = false)
    (hcreators : coerceStrSet (Json.get inner (codePoints "creators")) "wallet" = .ok creators)
    (hmints : coerceStrSet (Json.get inner (codePoints "mints")) "mint" = .ok mints) :
    sectionOk (fun _ _ => true) items = true := by
  rcases (sectionMembers_of_orEmpty h hslip).2 with rfl | rfl
  · rfl
  · rw [sectionSlips, Bool.or_eq_false_iff] at hslip
    rw [sectionOk, Bool.and_eq_true]
    exact ⟨coerceStrSet_eq_ok hcreators hslip.1, coerceStrSet_eq_ok hmints hslip.2⟩

theorem listsOk_of_sectionOk {entryOk : String → Json → Bool} (h : sectionOk entryOk items = true) :
    listOk (entryOk "wallet") (Json.get (sectionMembers items) (codePoints "creators")) = true ∧
      listOk (entryOk "mint") (Json.get (sectionMembers items) (codePoints "mints")) = true := by
  match items with
  | none => exact ⟨rfl, rfl⟩
  | some (.obj inner) => exact Bool.and_eq_true_iff.1 h
  | some .null | some (.bool _) | some (.int _) | some (.float _) | some (.str _)
  | some (.arr _) => cases h

/-- **A well-shaped document is accepted**, with the addresses that are in it. -/
theorem snapshotOf_eq_ok (str : Json → CodePoints) {doc : Json} (h : wellShaped doc = true)
    (mtimeNs size : ℤ) :
    ∃ snap, snapshotOf str doc mtimeNs size = .ok snap ∧
      snap.deniedCreators = deniedIn "creators" "wallet" doc ∧
      snap.deniedMints = deniedIn "mints" "mint" doc := by
  match doc with
  | .obj doc =>
      rw [wellShaped, documentOk, Bool.and_eq_true] at h
      obtain ⟨hcreators, hmints⟩ := listsOk_of_sectionOk h.1
      obtain ⟨hallowed, hallowed'⟩ := listsOk_of_sectionOk h.2
      rw [snapshotOf, orEmpty_of_sectionOk h.1, orEmpty_of_sectionOk h.2]
      dsimp only
      rw [coerceStrSet_of_listOk hcreators, coerceStrSet_of_listOk hmints,
        coerceStrSet_of_listOk hallowed, coerceStrSet_of_listOk hallowed']
      exact ⟨_, rfl, rfl, rfl⟩
  | .null | .bool _ | .int _ | .float _ | .str _ | .arr _ => cases h

/-- **Any other document is refused**, but for those that the defaults let through. -/
theorem snapshotOf_error (str : Json → CodePoints) {doc : Json} (h : wellShaped doc = false)
    (hslip : slips doc = false) (mtimeNs size : ℤ) :
    ∃ message, snapshotOf str doc mtimeNs size = .error (.valueError message) := by
  match doc with
  | .null | .bool _ | .int _ | .float _ | .str _ | .arr _ => exact ⟨_, rfl⟩
  | .obj doc =>
      rw [slips, Bool.or_eq_false_iff] at hslip
      rw [snapshotOf]
      split
      case h_2 => exact ⟨_, rfl⟩
      case h_1 deny allow hdeny hallow =>
        rcases coerceStrSet_cases (Json.get deny (codePoints "creators")) "wallet" with
          ⟨_, hcreators⟩ | ⟨message, hcreators⟩
        case inr => exact ⟨message, by rw [hcreators]; rfl⟩
        rcases coerceStrSet_cases (Json.get deny (codePoints "mints")) "mint" with
          ⟨_, hmints⟩ | ⟨message, hmints⟩
        case inr => exact ⟨message, by rw [hcreators, hmints]; rfl⟩
        rcases coerceStrSet_cases (Json.get allow (codePoints "creators")) "wallet" with
          ⟨_, hallowed⟩ | ⟨message, hallowed⟩
        case inr => exact ⟨message, by rw [hcreators, hmints, hallowed]; rfl⟩
        rcases coerceStrSet_cases (Json.get allow (codePoints "mints")) "mint" with
          ⟨_, hallowed'⟩ | ⟨message, hallowed'⟩
        case inr => exact ⟨message, by rw [hcreators, hmints, hallowed, hallowed']; rfl⟩
        -- all four lists went through, and none of them by a default
        have hok : wellShaped (.obj doc) = true := by
          rw [wellShaped, documentOk, Bool.and_eq_true]
          exact ⟨sectionOk_of_coerce hdeny hslip.1 hcreators hmints,
            sectionOk_of_coerce hallow hslip.2 hallowed hallowed'⟩
        rw [hok] at h
        cases h

end Documents

end Gate
end AatsSniper
