import Mathlib.Data.List.Nodup
import Mathlib.Data.Option.Basic

/-!
# Collections with a unique key

A collection of documents, at most one under each key, as a document database keeps them under a
unique index. Documents are looked up, updated and inserted by their key.

## Main definitions

* `Collection δ κ key`: a list of documents whose keys are distinct
* `find`, `updateOne`, `insertIfAbsent`, `upsert`: the operations on one key
* `replaceOne`: the document under a key is replaced, or stored when there is none
* `updateMany`, `deleteMany`: the operations on all documents with a property
* `map`: a function on the documents that keeps their keys

## Main results

* `find_updateOne`, `find_updateMany`, `find_insertIfAbsent`, `find_upsert`: what is found after each
  operation
* `mem_replaceOne`, `mem_deleteMany`: what is stored after a replacement and after a deletion
* `map_replaceOne`, `map_deleteMany`: functions on the documents go along with the operations
* `count_eq_one`: a document that is found is stored once
-/

/-- Documents `δ` with distinct keys. -/
structure Collection (δ κ : Type) (key : δ → κ) where
  docs : List δ
  unique : (docs.map key).Nodup

namespace Collection

variable {δ κ : Type} {key : δ → κ}

/-- The collection without documents. -/
def empty : Collection δ κ key := ⟨[], List.nodup_nil⟩

/-- Updates that keep the keys, of some of the documents. -/
theorem map_key_update (docs : List δ) (q : δ → Prop) [DecidablePred q] {f : δ → δ}
    (hf : ∀ d, key (f d) = key d) :
    (docs.map fun d => if q d then f d else d).map key = docs.map key := by
  rw [List.map_map]
  apply List.map_congr_left
  intro d _
  by_cases hd : q d <;> simp [hd, hf]

/-- Updates of documents outside `p`, which stay outside. -/
theorem filter_update (docs : List δ) {q : δ → Prop} [DecidablePred q] {p : δ → Bool} {f : δ → δ}
    (h : ∀ d ∈ docs, q d → p d = false ∧ p (f d) = false) :
    (docs.map fun d => if q d then f d else d).filter p = docs.filter p := by
  induction docs with
  | nil => rfl
  | cons d docs ih =>
    have ih := ih fun e he => h e (List.mem_cons_of_mem d he)
    by_cases hq : q d
    · obtain ⟨hp, hpf⟩ := h d (List.mem_cons_self ..) hq
      simp [hq, hp, hpf, ih]
    · simp only [List.map_cons, if_neg hq, List.filter_cons, ih]

/-- Delete every document with a property. -/
def deleteMany (c : Collection δ κ key) (q : δ → Bool) : Collection δ κ key where
  docs := c.docs.filter fun d => !q d
  unique := c.unique.sublist (List.filter_sublist.map key)

theorem mem_deleteMany {c : Collection δ κ key} {q : δ → Bool} {d : δ} :
    d ∈ (c.deleteMany q).docs ↔ d ∈ c.docs ∧ q d = false := by
  simp [deleteMany]

variable [DecidableEq κ] (c : Collection δ κ key)

/-- The document under a key. -/
def find (k : κ) : Option δ := c.docs.find? fun d => key d = k

/-- Change the document under a key, if there is one, by a function that keeps its key. -/
def updateOne (k : κ) (f : δ → δ) (hf : ∀ d, key (f d) = key d) : Collection δ κ key where
  docs := c.docs.map fun d => if key d = k then f d else d
  unique := by
    rw [map_key_update _ (fun d => key d = k) hf]
    exact c.unique

/-- Change every document with a property, by a function that keeps the keys. -/
def updateMany (q : δ → Bool) (f : δ → δ) (hf : ∀ d, key (f d) = key d) : Collection δ κ key where
  docs := c.docs.map fun d => if q d then f d else d
  unique := by
    rw [map_key_update _ (fun d => q d = true) hf]
    exact c.unique

variable {c} {k k' : κ} {d : δ}

theorem key_of_find (h : c.find k = some d) : key d = k := by
  simpa using List.find?_some h

theorem find_eq_none_iff : c.find k = none ↔ k ∉ c.docs.map key := by
  simp [find]

theorem mem_of_find (h : c.find k = some d) : d ∈ c.docs := List.mem_of_find?_eq_some h

/-- A document is found under its key. -/
theorem find_of_mem (h : d ∈ c.docs) : c.find (key d) = some d := by
  obtain ⟨docs, unique⟩ := c
  unfold find
  induction docs with
  | nil => simp at h
  | cons e docs ih =>
    rw [List.map_cons, List.nodup_cons] at unique
    rcases List.mem_cons.mp h with rfl | h
    · simp
    · have hne : key e ≠ key d := fun he => unique.1 (he ▸ List.mem_map_of_mem h)
      rw [List.find?_cons_of_neg (by simpa using hne)]
      exact ih unique.2 h

/-- **A document that is found is stored once.** -/
theorem count_eq_one (h : c.find k = some d) : c.docs.countP (fun d => key d = k) = 1 := by
  have hcount : c.docs.countP (fun d => key d = k) = (c.docs.map key).count k := by
    rw [List.count, List.countP_map]
    apply List.countP_congr
    intro d _
    simp
  rw [hcount, List.count_eq_one_of_mem c.unique]
  exact key_of_find h ▸ List.mem_map_of_mem (mem_of_find h)

theorem find_updateOne {f : δ → δ} {hf : ∀ d, key (f d) = key d} :
    (c.updateOne k f hf).find k' = if k' = k then (c.find k').map f else c.find k' := by
  suffices ∀ docs : List δ, (docs.map fun d => if key d = k then f d else d).find? (key · = k') =
      if k' = k then (docs.find? (key · = k')).map f else docs.find? (key · = k') from this c.docs
  intro docs
  induction docs with
  | nil => simp
  | cons e docs ih =>
    rw [List.map_cons]
    have hkey : key (if key e = k then f e else e) = key e := by
      by_cases he : key e = k <;> simp [he, hf]
    by_cases he : key e = k'
    · rw [List.find?_cons_of_pos (by simpa only [decide_eq_true_eq] using hkey.trans he),
        List.find?_cons_of_pos (by simpa only [decide_eq_true_eq] using he)]
      by_cases hk : k' = k <;> simp [he, hk]
    · have hne : key (if key e = k then f e else e) ≠ k' := fun h => he (hkey.symm.trans h)
      rw [List.find?_cons_of_neg (by simpa only [decide_eq_true_eq] using hne),
        List.find?_cons_of_neg (by simpa only [decide_eq_true_eq] using he)]
      exact ih

theorem find_updateMany {q : δ → Bool} {f : δ → δ} {hf : ∀ d, key (f d) = key d} :
    (c.updateMany q f hf).find k = (c.find k).map fun d => if q d then f d else d := by
  have hkey : (fun d => decide (key d = k)) ∘ (fun d => if q d then f d else d) =
      fun d => decide (key d = k) := by
    funext d
    by_cases hd : q d = true <;> simp [hd, hf]
  simp only [find, updateMany, List.find?_map, hkey]

@[simp] theorem find_empty : (empty : Collection δ κ key).find k = none := rfl

variable (c)

/-- Insert a document unless there is one under its key. -/
def insertIfAbsent (d : δ) : Collection δ κ key :=
  if h : c.find (key d) = none then
    { docs := c.docs ++ [d]
      unique := by
        rw [List.map_append, List.map_singleton]
        exact List.nodup_append.mpr ⟨c.unique, List.nodup_singleton _, by
          intro k hk k' hk' he
          obtain rfl := List.mem_singleton.mp hk'
          exact find_eq_none_iff.mp h (he ▸ hk)⟩ }
  else c

/-- Change the document under the key of `d`, or insert `d` when there is none. -/
def upsert (d : δ) (f : δ → δ) (hf : ∀ d, key (f d) = key d) : Collection δ κ key :=
  if c.find (key d) = none then c.insertIfAbsent d else c.updateOne (key d) f hf

/-- Replace the document under the key of `d` by `d`, or insert `d` when there is none. -/
def replaceOne (d : δ) : Collection δ κ key :=
  c.upsert d (fun e => if key e = key d then d else e) fun e => by
    by_cases he : key e = key d <;> simp [he]

variable {c}

theorem docs_insertIfAbsent (h : c.find (key d) = none) :
    (c.insertIfAbsent d).docs = c.docs ++ [d] := by
  rw [insertIfAbsent, dif_pos h]

theorem insertIfAbsent_of_find (h : c.find (key d) ≠ none) : c.insertIfAbsent d = c := by
  rw [insertIfAbsent, dif_neg h]

theorem find_insertIfAbsent :
    (c.insertIfAbsent d).find k = if k = key d then some ((c.find k).getD d) else c.find k := by
  by_cases h : c.find (key d) = none
  · rw [insertIfAbsent, dif_pos h]
    by_cases hk : k = key d
    · subst hk
      have hnone : c.docs.find? (fun e => key e = key d) = none := h
      simp [find, hnone]
    · simp [find, List.find?_append, hk, Ne.symm hk]
  · rw [insertIfAbsent_of_find h]
    by_cases hk : k = key d
    · subst hk
      obtain ⟨e, he⟩ := Option.ne_none_iff_exists'.mp h
      simp [he]
    · simp [hk]

theorem find_upsert {f : δ → δ} {hf : ∀ d, key (f d) = key d} :
    (c.upsert d f hf).find k =
      if k = key d then some (((c.find k).map f).getD d) else c.find k := by
  by_cases h : c.find (key d) = none
  · rw [upsert, if_pos h, find_insertIfAbsent]
    by_cases hk : k = key d <;> simp [hk, h]
  · rw [upsert, if_neg h, find_updateOne]
    obtain ⟨e, he⟩ := Option.ne_none_iff_exists'.mp h
    by_cases hk : k = key d <;> simp [hk, he]

theorem mem_iff_find : d ∈ c.docs ↔ c.find (key d) = some d := ⟨find_of_mem, mem_of_find⟩

/-- Where there is nothing to replace, the document is added. -/
theorem docs_replaceOne (h : c.find (key d) = none) : (c.replaceOne d).docs = c.docs ++ [d] := by
  rw [replaceOne, upsert, if_pos h, docs_insertIfAbsent h]

theorem docs_replaceOne_of_find (h : c.find (key d) ≠ none) :
    (c.replaceOne d).docs = c.docs.map fun e => if key e = key d then d else e := by
  rw [replaceOne, upsert, if_neg h]
  apply List.map_congr_left
  intro e _
  by_cases he : key e = key d <;> simp [he]

/-- A replacement takes the place of the document under its key, and of no other. -/
theorem mem_replaceOne {e : δ} :
    e ∈ (c.replaceOne d).docs ↔ e = d ∨ (e ∈ c.docs ∧ key e ≠ key d) := by
  rw [mem_iff_find, replaceOne, find_upsert]
  by_cases he : key e = key d
  · rw [if_pos he]
    have hnew : ((c.find (key e)).map fun x => if key x = key d then d else x).getD d = d := by
      cases hc : c.find (key e) with
      | none => rfl
      | some x => simp [(key_of_find hc).trans he]
    rw [hnew]
    simp [he, eq_comm]
  · rw [if_neg he, ← mem_iff_find]
    have hne : e ≠ d := fun h => he (congrArg key h)
    simp [he, hne]

/-- A replacement adds its document to those under other keys. -/
theorem perm_replaceOne :
    (c.replaceOne d).docs.Perm (d :: (c.deleteMany fun e => key e = key d).docs) := by
  have hne : d ∉ (c.deleteMany fun e => key e = key d).docs := fun h => by
    simpa using (mem_deleteMany.mp h).2
  refine (List.perm_ext_iff_of_nodup (Collection.unique _).of_map
    (List.nodup_cons.mpr ⟨hne, (Collection.unique _).of_map⟩)).mpr fun e => ?_
  rw [mem_replaceOne, List.mem_cons, mem_deleteMany, decide_eq_false_iff_not]

/-! ## Functions on the documents -/

section Map

variable {δ' : Type} {key' : δ' → κ}

omit [DecidableEq κ] in
theorem eq_of_docs {c c' : Collection δ κ key} (h : c.docs = c'.docs) : c = c' := by
  cases c
  cases c'
  cases h
  rfl

/-- A function on the documents that keeps their keys. -/
def map (f : δ → δ') (hf : ∀ d, key' (f d) = key d) (c : Collection δ κ key) :
    Collection δ' κ key' where
  docs := c.docs.map f
  unique := by
    have he : key' ∘ f = key := funext hf
    rw [List.map_map, he]
    exact c.unique

variable {f : δ → δ'} {hf : ∀ d, key' (f d) = key d}

omit [DecidableEq κ] in
theorem docs_map : (c.map f hf).docs = c.docs.map f := rfl

omit [DecidableEq κ] in
theorem map_deleteMany {q : δ → Bool} {q' : δ' → Bool} (hq : ∀ d, q' (f d) = q d) :
    (c.deleteMany q).map f hf = (c.map f hf).deleteMany q' := by
  have he : (fun d => !q' d) ∘ f = fun d => !q d := funext fun d => congrArg (!·) (hq d)
  simp only [map, deleteMany, List.filter_map, he]

theorem find_map (k : κ) : (c.map f hf).find k = (c.find k).map f := by
  have he : (fun d => decide (key' d = k)) ∘ f = fun d => decide (key d = k) := by
    funext d
    simp [hf]
  simp only [find, map, List.find?_map, he]

theorem map_replaceOne : (c.replaceOne d).map f hf = (c.map f hf).replaceOne (f d) := by
  have hfind : (c.map f hf).find (key' (f d)) = (c.find (key d)).map f := by
    rw [find_map, hf]
  apply eq_of_docs
  rw [docs_map]
  by_cases hnone : c.find (key d) = none
  · rw [docs_replaceOne hnone, docs_replaceOne (by rw [hfind, hnone, Option.map_none]), docs_map,
      List.map_append, List.map_singleton]
  · have hsome : (c.map f hf).find (key' (f d)) ≠ none := by
      rw [hfind]
      exact mt Option.map_eq_none_iff.mp hnone
    rw [docs_replaceOne_of_find hnone, docs_replaceOne_of_find hsome, docs_map, List.map_map,
      List.map_map]
    apply List.map_congr_left
    intro e _
    by_cases he : key e = key d <;> simp [he, hf]

end Map

end Collection
