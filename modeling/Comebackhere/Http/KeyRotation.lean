import Comebackhere.Http.MerchantKeys
import Comebackhere.Library.Crew

/-!
# Concurrent rotations of a merchant's key

A rotation inserts the merchant's new key and then revokes the merchant's other keys, each by one
operation of the database. Any number of rotations of one merchant interleave at these operations.
The last of them to revoke leaves no key but its own, and that one only if no other rotation has
revoked since it was inserted.

## Main definitions

* `Rotation`, `Action`, `step`: the rotations of a merchant and their operations
* `activeIds`: the active keys of a merchant
* `LastUndisturbed`: no rotation revokes between the two operations of the last one to revoke

## Main results

* `rotateKey_eq_run`: a rotation by itself is the route's
* `Inv.step`: which keys are active at each point of the history
* `rotation_iff`: a returned key is active at the end exactly when the last rotation is undisturbed
-/

namespace Http

namespace KeyRotation

open Machine

/-- Where a rotation is: before its insertion, before it revokes the other keys, or done. It fails
when its insertion is refused. -/
inductive Phase
  | inserting
  | revoking
  | answered
  | failed
  deriving DecidableEq

/-- A rotation that acts for the merchant, and the key it has drawn. -/
structure Rotation where
  fresh : Fresh
  phase : Phase

structure State where
  keys : Keys
  rotations : List Rotation

inductive Action
  | arrive (fresh : Fresh)
  | advance (i : ℕ)

def State.setPhase (s : State) (i : ℕ) (r : Rotation) (phase : Phase) : State :=
  { s with rotations := s.rotations.set i { r with phase } }

/-- The next operation of a rotation. -/
def advance (p : Platform) (merchant : String) (s : State) (i : ℕ) (r : Rotation) : State :=
  match r.phase with
  | .inserting =>
    -- the unique index refuses a key id that is taken, and the request fails
    match insertOne s.keys (newRecord p merchant r.fresh) with
    | .ok keys => { s with keys }.setPhase i r .revoking
    | .error _ => s.setPhase i r .failed
  | .revoking =>
    { s with keys := revokeOthers s.keys merchant r.fresh.keyId r.fresh.now }.setPhase i r .answered
  | .answered | .failed => s

def step (p : Platform) (merchant : String) (s : State) : Action → State
  | .arrive fresh => { s with rotations := s.rotations ++ [⟨fresh, .inserting⟩] }
  | .advance i =>
    match s.rotations[i]? with
    | none => s
    | some r => advance p merchant s i r

/-- The merchant's active keys. -/
def activeIds (merchant : String) (keys : Keys) : List String :=
  (keys.docs.filter fun record =>
    record.merchantAddress = merchant ∧ record.revokedAt = none).map (·.keyId)

/-- The keys returned as active. -/
def State.returned (s : State) : List String :=
  (s.rotations.filter (·.phase = .answered)).map (·.fresh.keyId)

/-! ## One rotation by itself -/

/-- The route's rotation is the two operations, one after the other. -/
theorem rotateKey_eq_run {p : Platform} {keys keys' : Keys} {req : Request} {fresh : Fresh}
    {response : Response} (h : rotateKey p keys req fresh = .ok (response, keys')) :
    ∃ merchant, response.discloses = some merchant ∧
      run (step p merchant) ⟨keys, []⟩ [.arrive fresh, .advance 0, .advance 0] =
        ⟨keys', [⟨fresh, .answered⟩]⟩ := by
  obtain ⟨locals, -, h⟩ := Checked.bind_eq_ok.mp h
  obtain ⟨body, -, h⟩ := Checked.bind_eq_ok.mp h
  split at h
  · cases h
  · obtain ⟨keys₁, hinsert, h⟩ := Checked.bind_eq_ok.mp h
    obtain ⟨rfl, rfl⟩ := Prod.mk.inj (Checked.pure_eq_ok.mp h)
    refine ⟨body.merchantAddress, rfl, ?_⟩
    simp [run, step, advance, hinsert, State.setPhase]

/-! ## The order of the operations -/

/-- A history of the rotations. -/
abbrev History := List (State × Action)

/-- The rotation inserts its key. -/
def Inserts (i : ℕ) (t : State × Action) : Prop :=
  t.2 = .advance i ∧ ∃ r ∈ t.1.rotations[i]?, r.phase = .inserting ∧
    t.1.keys.find r.fresh.keyId = none

/-- The rotation revokes the other keys. -/
def Revokes (i : ℕ) (t : State × Action) : Prop :=
  t.2 = .advance i ∧ ∃ r ∈ t.1.rotations[i]?, r.phase = .revoking

/-- No rotation has revoked since this one inserted its key. -/
def Undisturbed (i : ℕ) (h : History) : Prop :=
  Since (fun _ => Inserts i) (fun t => ∃ j, Revokes j t) h

/-- The rotation that was the last to revoke had been undisturbed. -/
def LastUndisturbed (h : History) : Prop :=
  Since (fun h t => ∃ i, Revokes i t ∧ Undisturbed i h) (fun t => ∃ j, Revokes j t) h

section Order

variable {h : History} {t : State × Action} {i : ℕ}

theorem undisturbed_snoc : Undisturbed i (h ++ [t]) ↔
    Inserts i t ∨ (Undisturbed i h ∧ ¬ ∃ j, Revokes j t) := since_snoc

theorem lastUndisturbed_snoc : LastUndisturbed (h ++ [t]) ↔
    (∃ i, Revokes i t ∧ Undisturbed i h) ∨ (LastUndisturbed h ∧ ¬ ∃ j, Revokes j t) := since_snoc

/-- What an entry of another kind leaves. -/
theorem undisturbed_snoc_of_not (hi : ¬ Inserts i t) (hr : ¬ ∃ j, Revokes j t) :
    Undisturbed i (h ++ [t]) ↔ Undisturbed i h := by
  rw [undisturbed_snoc]
  exact ⟨fun h => (h.resolve_left hi).1, fun h => Or.inr ⟨h, hr⟩⟩

theorem lastUndisturbed_snoc_of_not (hr : ¬ ∃ j, Revokes j t) :
    LastUndisturbed (h ++ [t]) ↔ LastUndisturbed h := by
  rw [lastUndisturbed_snoc]
  constructor
  · rintro (⟨j, hj, -⟩ | ⟨h, -⟩)
    · exact absurd ⟨j, hj⟩ hr
    · exact h
  · exact fun h => Or.inr ⟨h, hr⟩

end Order

/-! ## The active keys -/

section Active

variable {p : Platform} {merchant id keyId : String} {keys : Keys} {fresh : Fresh} {now : ℕ}

theorem mem_activeIds : id ∈ activeIds merchant keys ↔
    ∃ record, keys.find id = some record ∧ record.merchantAddress = merchant ∧
      record.revokedAt = none := by
  simp only [activeIds, List.mem_map, List.mem_filter, decide_eq_true_eq]
  constructor
  · rintro ⟨record, ⟨hmem, hactive⟩, rfl⟩
    exact ⟨record, Collection.find_of_mem hmem, hactive⟩
  · rintro ⟨record, hfind, hactive⟩
    exact ⟨record, ⟨Collection.mem_of_find hfind, hactive⟩, Collection.key_of_find hfind⟩

theorem nodup_activeIds : (activeIds merchant keys).Nodup :=
  keys.unique.sublist (List.filter_sublist.map _)

theorem mem_activeIds_insert (hfresh : keys.find fresh.keyId = none) :
    id ∈ activeIds merchant (keys.insertIfAbsent (newRecord p merchant fresh)) ↔
      id = fresh.keyId ∨ id ∈ activeIds merchant keys := by
  rw [mem_activeIds, mem_activeIds, Collection.find_insertIfAbsent]
  have hkey : (newRecord p merchant fresh).keyId = fresh.keyId := rfl
  rw [hkey]
  split
  · next heq => simp [heq, hfresh, newRecord]
  · next hne => simp [hne]

theorem find_revokeOthers : (revokeOthers keys merchant keyId now).find id =
    (keys.find id).map fun record =>
      if record.merchantAddress = merchant ∧ record.keyId ≠ keyId ∧ record.revokedAt = none then
        record.revoke now
      else record := by
  have hfind : (revokeOthers keys merchant keyId now).find id = _ := Collection.find_updateMany
  simp only [decide_eq_true_eq] at hfind
  exact hfind

/-- Only the key that revokes the others may stay active. -/
theorem mem_activeIds_revokeOthers :
    id ∈ activeIds merchant (revokeOthers keys merchant keyId now) ↔
      id = keyId ∧ id ∈ activeIds merchant keys := by
  rw [mem_activeIds, mem_activeIds, find_revokeOthers]
  constructor
  · rintro ⟨record, hfind, hmerchant, hactive⟩
    obtain ⟨d, hd, rfl⟩ := Option.map_eq_some_iff.mp hfind
    have hid : d.keyId = id := Collection.key_of_find hd
    split at hactive
    · cases hactive
    · next hq =>
      rw [if_neg hq] at hmerchant
      refine ⟨?_, d, hd, hmerchant, hactive⟩
      by_contra hne
      exact hq (by simp [hmerchant, hactive, hid, hne])
  · rintro ⟨rfl, d, hd, hmerchant, hactive⟩
    have hid : d.keyId = id := Collection.key_of_find hd
    exact ⟨d, by simp [hd, hid], hmerchant, hactive⟩

end Active

/-! ## Runs -/

/-- The rotation has inserted its key. -/
def Phase.placed : Phase → Bool
  | .revoking | .answered => true
  | _ => false

/-- The key belongs to a rotation that has not revoked yet. -/
def Pending (s : State) (id : String) : Prop :=
  ∃ r ∈ s.rotations, r.phase = .revoking ∧ r.fresh.keyId = id

/-- What is active at a point of the history: the key of a rotation between its two operations while
it is undisturbed, the key of the last rotation to revoke if it had been, and no others but pending
ones. -/
structure Inv (merchant : String) (h : History) (s : State) : Prop where
  stored : ∀ r ∈ s.rotations, r.phase.placed = true → s.keys.find r.fresh.keyId ≠ none
  distinct : ∀ (i j : ℕ) (r r' : Rotation), s.rotations[i]? = some r →
    s.rotations[j]? = some r' → r.phase.placed = true → r'.phase.placed = true →
    r.fresh.keyId = r'.fresh.keyId → i = j
  pending : ∀ (i : ℕ) (r : Rotation), s.rotations[i]? = some r → r.phase = .revoking →
    (r.fresh.keyId ∈ activeIds merchant s.keys ↔ Undisturbed i h)
  last : (∀ r ∈ s.rotations, r.phase ≠ .answered) ∨
    ∃ (i : ℕ) (r : Rotation), s.rotations[i]? = some r ∧ r.phase = .answered ∧
      (r.fresh.keyId ∈ activeIds merchant s.keys ↔ LastUndisturbed h) ∧
      ∀ id ∈ activeIds merchant s.keys, id = r.fresh.keyId ∨ Pending s id

section Invariant

variable {p : Platform} {merchant : String} {h : History} {s : State} {i : ℕ} {r : Rotation}

theorem inv_start (keys : Keys) : Inv merchant [] ⟨keys, []⟩ := by
  refine ⟨by simp, ?_, ?_, Or.inl (by simp)⟩
  · intro i j r r' hr
    simp at hr
  · intro i r hr
    simp at hr

/-- An entry that neither inserts nor revokes, while the keys and the rotations under way stay. -/
theorem Inv.quiet (hs : Inv merchant h s) {t : State × Action} {rotations : List Rotation}
    (hinserts : ∀ i, ¬ Inserts i t) (hrevokes : ¬ ∃ i, Revokes i t)
    (hnew : ∀ (i : ℕ) (r : Rotation), rotations[i]? = some r → r.phase.placed = true →
      s.rotations[i]? = some r)
    (hold : ∀ (i : ℕ) (r : Rotation), s.rotations[i]? = some r → r.phase.placed = true →
      rotations[i]? = some r) : Inv merchant (h ++ [t]) ⟨s.keys, rotations⟩ := by
  have hmem : ∀ r ∈ rotations, r.phase.placed = true → r ∈ s.rotations := by
    intro r hr hplaced
    obtain ⟨i, hi⟩ := List.getElem?_of_mem hr
    exact List.mem_of_getElem? (hnew i r hi hplaced)
  refine ⟨fun r hr hplaced => hs.stored r (hmem r hr hplaced) hplaced, ?_, ?_, ?_⟩
  · intro i j r r' hr hr' hplaced hplaced'
    exact hs.distinct i j r r' (hnew i r hr hplaced) (hnew j r' hr' hplaced') hplaced hplaced'
  · intro i r hr hphase
    rw [undisturbed_snoc_of_not (hinserts i) hrevokes]
    exact hs.pending i r (hnew i r hr (by rw [hphase]; rfl)) hphase
  · rcases hs.last with hnone | ⟨i, r, hr, hphase, hiff, hothers⟩
    · exact Or.inl fun r hr hphase => hnone r (hmem r hr (by rw [hphase]; rfl)) hphase
    · refine Or.inr ⟨i, r, hold i r hr (by rw [hphase]; rfl), hphase, ?_, fun id hid => ?_⟩
      · rw [lastUndisturbed_snoc_of_not hrevokes]
        exact hiff
      · apply (hothers id hid).imp_right
        rintro ⟨r', hr', hphase', hid'⟩
        obtain ⟨j, hj⟩ := List.getElem?_of_mem hr'
        exact ⟨r', List.mem_of_getElem? (hold j r' hj (by rw [hphase']; rfl)), hphase', hid'⟩

theorem not_inserts_of_phase {a : Action} (ha : a = .advance i) (hr : s.rotations[i]? = some r)
    (hphase : r.phase ≠ .inserting ∨ s.keys.find r.fresh.keyId ≠ none) (j : ℕ) :
    ¬ Inserts j (s, a) := by
  rintro ⟨hj, r', hr', hphase', hfind⟩
  obtain rfl : i = j := by simpa [ha] using hj
  obtain rfl := Option.some.inj (hr.symm.trans hr')
  exact hphase.elim (fun h => h hphase') fun h => h hfind

theorem not_revokes_of_phase {a : Action} (ha : a = .advance i) (hr : s.rotations[i]? = some r)
    (hphase : r.phase ≠ .revoking) : ¬ ∃ j, Revokes j (s, a) := by
  rintro ⟨j, hj, r', hr', hphase'⟩
  obtain rfl : i = j := by simpa [ha] using hj
  obtain rfl := Option.some.inj (hr.symm.trans hr')
  exact hphase hphase'

theorem getElem?_set_self {phase : Phase} (hr : s.rotations[i]? = some r) :
    (s.rotations.set i { r with phase })[i]? = some { r with phase } := by
  obtain ⟨hlt, -⟩ := List.getElem?_eq_some_iff.mp hr
  rw [List.getElem?_set_self hlt]

theorem Inv.arrive (hs : Inv merchant h s) (fresh : Fresh) :
    Inv merchant (h ++ [(s, .arrive fresh)]) (step p merchant s (.arrive fresh)) := by
  have hnone : ∀ i, ¬ Inserts i (s, .arrive fresh) := by simp [Inserts]
  refine hs.quiet hnone (by simp [Revokes]) ?_ ?_
  · intro i r hr hplaced
    rcases lt_or_ge i s.rotations.length with hi | hi
    · rwa [List.getElem?_append_left hi] at hr
    · rw [List.getElem?_append_right hi, List.getElem?_singleton] at hr
      split at hr
      · obtain rfl := Option.some.inj hr
        cases hplaced
      · cases hr
  · intro i r hr _
    obtain ⟨hlt, -⟩ := List.getElem?_eq_some_iff.mp hr
    rwa [List.getElem?_append_left hlt]

/-- A rotation inserts its key. -/
theorem Inv.insert (hs : Inv merchant h s) (hr : s.rotations[i]? = some r)
    (hphase : r.phase = .inserting) (hfresh : s.keys.find r.fresh.keyId = none) :
    Inv merchant (h ++ [(s, .advance i)])
      ⟨s.keys.insertIfAbsent (newRecord p merchant r.fresh),
        s.rotations.set i { r with phase := .revoking }⟩ := by
  have hinserts : Inserts i (s, .advance i) := ⟨rfl, r, hr, hphase, hfresh⟩
  have hrevokes := not_revokes_of_phase rfl hr (by simp [hphase])
  -- the keys of the other rotations are in the collection already
  have hother : ∀ (j : ℕ) (r' : Rotation),
      (s.rotations.set i { r with phase := .revoking })[j]? = some r' → r'.phase.placed = true →
      j ≠ i → s.rotations[j]? = some r' ∧ r'.fresh.keyId ≠ r.fresh.keyId := by
    intro j r' hj hplaced hne
    rcases Crew.getElem?_set_eq_some hj with ⟨he, -⟩ | ⟨-, hj⟩
    · exact absurd he hne
    · refine ⟨hj, fun he => hs.stored r' (List.mem_of_getElem? hj) hplaced ?_⟩
      rw [he]
      exact hfresh
  -- the rotation itself has gone on
  have hself : ∀ r', (s.rotations.set i { r with phase := .revoking })[i]? = some r' →
      r' = { r with phase := .revoking } := by
    intro r' hr'
    rw [getElem?_set_self hr] at hr'
    exact (Option.some.inj hr').symm
  have hfound : ∀ id, s.keys.find id ≠ none ∨ id = r.fresh.keyId →
      (s.keys.insertIfAbsent (newRecord p merchant r.fresh)).find id ≠ none := by
    intro id hid
    rw [Collection.find_insertIfAbsent]
    split
    · simp
    · next hne => exact hid.resolve_right hne
  refine ⟨fun r' hr' hplaced => ?_, ?_, ?_, ?_⟩
  · obtain ⟨j, hj⟩ := List.getElem?_of_mem hr'
    rcases eq_or_ne j i with rfl | hne
    · rw [hself r' hj]
      exact hfound _ (Or.inr rfl)
    · obtain ⟨hj, -⟩ := hother j r' hj hplaced hne
      exact hfound _ (Or.inl (hs.stored r' (List.mem_of_getElem? hj) hplaced))
  · intro j k r₁ r₂ hj hk hplaced₁ hplaced₂ he
    rcases eq_or_ne j i with rfl | hji <;> rcases eq_or_ne k j with rfl | hkj
    · rfl
    · obtain ⟨-, hne⟩ := hother k r₂ hk hplaced₂ hkj
      rw [hself r₁ hj] at he
      exact absurd he.symm hne
    · rfl
    · obtain ⟨hj, hne⟩ := hother j r₁ hj hplaced₁ hji
      rcases eq_or_ne k i with rfl | hki
      · rw [hself r₂ hk] at he
        exact absurd he hne
      · obtain ⟨hk, -⟩ := hother k r₂ hk hplaced₂ hki
        exact hs.distinct j k r₁ r₂ hj hk hplaced₁ hplaced₂ he
  · intro j r' hj hphase'
    rw [mem_activeIds_insert hfresh]
    rcases eq_or_ne j i with rfl | hne
    · rw [hself r' hj]
      exact ⟨fun _ => undisturbed_snoc.mpr (Or.inl hinserts), fun _ => Or.inl rfl⟩
    · obtain ⟨hj, hdiffer⟩ := hother j r' hj (by rw [hphase']; rfl) hne
      have hnot : ¬ Inserts j (s, .advance i) := fun hins => hne (by simpa using hins.1.symm)
      rw [undisturbed_snoc_of_not hnot hrevokes, ← hs.pending j r' hj hphase']
      exact ⟨fun hid => hid.resolve_left hdiffer, Or.inr⟩
  -- the last one to revoke is who it was; the new key is pending
  · rcases hs.last with hnone | ⟨j, r', hj, hphase', hiff, hothers⟩
    · refine Or.inl (Crew.forall_mem_set hnone (b := { r with phase := .revoking }) ?_ i)
      simp
    · have hne : j ≠ i := by
        rintro rfl
        obtain rfl := Option.some.inj (hr.symm.trans hj)
        simp [hphase] at hphase'
      have hj' : (s.rotations.set i { r with phase := .revoking })[j]? = some r' := by
        rw [List.getElem?_set_ne (Ne.symm hne)]
        exact hj
      obtain ⟨-, hdiffer⟩ := hother j r' hj' (by rw [hphase']; rfl) hne
      refine Or.inr ⟨j, r', hj', hphase', ?_, fun id hid => ?_⟩
      · rw [mem_activeIds_insert hfresh, lastUndisturbed_snoc_of_not hrevokes, ← hiff]
        exact ⟨fun hid => hid.resolve_left hdiffer, Or.inr⟩
      · rcases (mem_activeIds_insert hfresh).mp hid with rfl | hid
        · exact Or.inr ⟨_, List.mem_of_getElem? (getElem?_set_self hr), rfl, rfl⟩
        · apply (hothers id hid).imp_right
          rintro ⟨r₁, hr₁, hphase₁, hid₁⟩
          obtain ⟨k, hk⟩ := List.getElem?_of_mem hr₁
          have hki : i ≠ k := by
            rintro rfl
            obtain rfl := Option.some.inj (hr.symm.trans hk)
            simp [hphase] at hphase₁
          refine ⟨r₁, List.mem_of_getElem? (i := k) ?_, hphase₁, hid₁⟩
          rw [List.getElem?_set_ne hki]
          exact hk

/-- A rotation revokes the other keys: only its own may be left. -/
theorem Inv.revoke (hs : Inv merchant h s) (hr : s.rotations[i]? = some r)
    (hphase : r.phase = .revoking) :
    Inv merchant (h ++ [(s, .advance i)])
      ⟨revokeOthers s.keys merchant r.fresh.keyId r.fresh.now,
        s.rotations.set i { r with phase := .answered }⟩ := by
  have hrevokes : Revokes i (s, .advance i) := ⟨rfl, r, hr, hphase⟩
  have hplaced : r.phase.placed = true := by rw [hphase]; rfl
  -- the rotations that have inserted their keys are those that had
  have hold : ∀ (j : ℕ) (r' : Rotation),
      (s.rotations.set i { r with phase := .answered })[j]? = some r' → r'.phase.placed = true →
      ∃ r₀, s.rotations[j]? = some r₀ ∧ r₀.phase.placed = true ∧ r₀.fresh = r'.fresh := by
    intro j r' hj hplaced'
    rcases Crew.getElem?_set_eq_some hj with ⟨rfl, rfl⟩ | ⟨-, hj⟩
    · exact ⟨r, hr, hplaced, rfl⟩
    · exact ⟨r', hj, hplaced', rfl⟩
  refine ⟨fun r' hr' hplaced' => ?_, ?_, ?_, ?_⟩
  · obtain ⟨j, hj⟩ := List.getElem?_of_mem hr'
    obtain ⟨r₀, hr₀, hplaced₀, hfresh⟩ := hold j r' hj hplaced'
    rw [find_revokeOthers, ← hfresh]
    simpa using hs.stored r₀ (List.mem_of_getElem? hr₀) hplaced₀
  · intro j k r₁ r₂ hj hk hplaced₁ hplaced₂ he
    obtain ⟨r₃, hr₃, hplaced₃, hfresh₃⟩ := hold j r₁ hj hplaced₁
    obtain ⟨r₄, hr₄, hplaced₄, hfresh₄⟩ := hold k r₂ hk hplaced₂
    exact hs.distinct j k r₃ r₄ hr₃ hr₄ hplaced₃ hplaced₄ (by rw [hfresh₃, hfresh₄, he])
  · -- another rotation between its two operations loses its key
    intro j r' hj hphase'
    rw [mem_activeIds_revokeOthers]
    rcases Crew.getElem?_set_eq_some hj with ⟨-, rfl⟩ | ⟨hne, hj⟩
    · cases hphase'
    · constructor
      · rintro ⟨he, -⟩
        exact absurd (hs.distinct j i r' r hj hr (by rw [hphase']; rfl) hplaced he) hne
      · intro hund
        rcases undisturbed_snoc.mp hund with hins | ⟨-, hnot⟩
        · exact absurd hins (not_inserts_of_phase rfl hr (Or.inl (by simp [hphase])) j)
        · exact absurd ⟨i, hrevokes⟩ hnot
  -- this one is the last to revoke now
  · refine Or.inr ⟨i, _, getElem?_set_self hr, rfl, ?_, fun id hid => ?_⟩
    · rw [mem_activeIds_revokeOthers, lastUndisturbed_snoc, hs.pending i r hr hphase]
      constructor
      · rintro ⟨-, hund⟩
        exact Or.inl ⟨i, hrevokes, hund⟩
      · rintro (⟨j, hj, hund⟩ | ⟨-, hnot⟩)
        · obtain rfl : i = j := by simpa using hj.1
          exact ⟨rfl, hund⟩
        · exact absurd ⟨i, hrevokes⟩ hnot
    · exact Or.inl (mem_activeIds_revokeOthers.mp hid).1

/-- **One operation** keeps track of the active keys. -/
theorem Inv.step (hs : Inv merchant h s) (a : Action) :
    Inv merchant (h ++ [(s, a)]) (step p merchant s a) := by
  cases a with
  | arrive fresh => exact hs.arrive fresh
  | advance i =>
    cases hr : s.rotations[i]? with
    | none =>
      simp only [KeyRotation.step, hr]
      refine hs.quiet (fun j hj => ?_) ?_ (fun _ _ h _ => h) fun _ _ h _ => h
      · obtain ⟨hij, r, hr', -⟩ := hj
        obtain rfl : i = j := by simpa using hij
        simp [hr] at hr'
      · rintro ⟨j, hij, r, hr', -⟩
        obtain rfl : i = j := by simpa using hij
        simp [hr] at hr'
    | some r =>
      simp only [KeyRotation.step, hr, advance]
      cases hphase : r.phase with
      | inserting =>
        simp only [insertOne]
        split
        · next keys hinsert =>
          split at hinsert
          · next hfresh =>
            obtain rfl := Except.ok.inj hinsert
            exact hs.insert hr hphase hfresh
          · cases hinsert
        · next e hinsert =>
          -- the insertion is refused, and the rotation is out
          split at hinsert
          · cases hinsert
          · next hfound =>
            refine hs.quiet (not_inserts_of_phase rfl hr (Or.inr hfound))
              (not_revokes_of_phase rfl hr (by simp [hphase])) ?_ ?_
            · intro j r' hj hplaced
              rcases Crew.getElem?_set_eq_some hj with ⟨-, rfl⟩ | ⟨-, hj⟩
              · cases hplaced
              · exact hj
            · intro j r' hj hplaced
              have hne : i ≠ j := by
                rintro rfl
                obtain rfl := Option.some.inj (hr.symm.trans hj)
                simp [hphase, Phase.placed] at hplaced
              rw [List.getElem?_set_ne hne]
              exact hj
      | revoking => exact hs.revoke hr hphase
      | answered =>
        exact hs.quiet (not_inserts_of_phase rfl hr (Or.inl (by simp [hphase])))
          (not_revokes_of_phase rfl hr (by simp [hphase])) (fun _ _ h _ => h) fun _ _ h _ => h
      | failed =>
        exact hs.quiet (not_inserts_of_phase rfl hr (Or.inl (by simp [hphase])))
          (not_revokes_of_phase rfl hr (by simp [hphase])) (fun _ _ h _ => h) fun _ _ h _ => h

end Invariant

/-- **Concurrent rotations.** When any number of rotations have all been answered, at least one of
the keys returned as active is active and at most one key of the merchant is, exactly when no
rotation revoked between the two operations of the last one to revoke. -/
theorem rotation_iff (p : Platform) (merchant : String) (keys : Keys) (as : List Action)
    (hall : ∀ r ∈ (run (step p merchant) ⟨keys, []⟩ as).rotations, r.phase = .answered)
    (hsome : (run (step p merchant) ⟨keys, []⟩ as).rotations ≠ []) :
    let s := run (step p merchant) ⟨keys, []⟩ as
    ((∃ id ∈ s.returned, id ∈ activeIds merchant s.keys) ∧
        (activeIds merchant s.keys).length ≤ 1) ↔
      LastUndisturbed (transitions (step p merchant) ⟨keys, []⟩ as) := by
  intro s
  have hinv : Inv merchant (transitions (step p merchant) ⟨keys, []⟩ as) s :=
    inv_of_each (I := fun h s => Inv merchant h s) (C := fun _ _ _ => True) (inv_start keys)
      (fun _ _ a hs _ => hs.step a) fun _ _ _ => trivial
  rcases hinv.last with hnone | ⟨i, r, hr, hphase, hiff, hothers⟩
  · obtain ⟨r, hr⟩ := List.exists_mem_of_ne_nil _ hsome
    exact absurd (hall r hr) (hnone r hr)
  · -- no rotation is under way: only the key of the last one to revoke may be active
    have honly : ∀ id ∈ activeIds merchant s.keys, id = r.fresh.keyId := by
      intro id hid
      apply (hothers id hid).resolve_right
      rintro ⟨r', hr', hphase', -⟩
      simp [hall r' hr'] at hphase'
    rw [← hiff]
    constructor
    · rintro ⟨⟨id, -, hid⟩, -⟩
      rw [← honly id hid]
      exact hid
    · intro hid
      refine ⟨⟨r.fresh.keyId, ?_, hid⟩, ?_⟩
      · exact List.mem_map.mpr ⟨r, by simp [List.mem_of_getElem? hr, hphase], rfl⟩
      -- the ids are distinct, and there is only one to choose from
      · have hsub : activeIds merchant s.keys ⊆ [r.fresh.keyId] := fun id hid => by
          simp [honly id hid]
        exact (nodup_activeIds.subperm hsub).length_le

/-! ## Two rotations -/

open Example in
/-- Both keys are inserted, and each rotation then revokes the other's. -/
theorem rotations_revoke_each_other : ¬ ∀ (p : Platform) (merchant : String) (keys : Keys)
    (as : List Action),
    (∀ r ∈ (run (step p merchant) ⟨keys, []⟩ as).rotations, r.phase = .answered) →
    (run (step p merchant) ⟨keys, []⟩ as).rotations ≠ [] →
    let s := run (step p merchant) ⟨keys, []⟩ as
    (∃ id ∈ s.returned, id ∈ activeIds merchant s.keys) ∧
      (activeIds merchant s.keys).length ≤ 1 := by
  intro h
  have hactive := (h platform merchant Collection.empty
    [.arrive firstKey, .arrive secondKey, .advance 0, .advance 1, .advance 0, .advance 1]
    (by decide) (List.cons_ne_nil _ _)).1
  exact absurd hactive (by decide)

open Example in
/-- One rotation after the other. -/
theorem rotation_iff_inTurn :
    let as := [.arrive firstKey, .advance 0, .advance 0, .arrive secondKey, .advance 1, .advance 1]
    let s := run (step platform merchant) ⟨Collection.empty, []⟩ as
    ((∃ id ∈ s.returned, id ∈ activeIds merchant s.keys) ∧
        (activeIds merchant s.keys).length ≤ 1) ↔
      LastUndisturbed (transitions (step platform merchant) ⟨Collection.empty, []⟩ as) :=
  rotation_iff platform merchant Collection.empty _ (by decide) (List.cons_ne_nil _ _)

end KeyRotation

end Http
