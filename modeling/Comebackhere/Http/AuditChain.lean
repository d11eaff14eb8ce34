import Comebackhere.Http.AuditLog
import Comebackhere.Library.Delimited
import Comebackhere.Library.HashChain

/-!
# The audit chains of administrative actions

The Rust backend has two of them: a chain of records with an actor, an action and a time, under
SHA-256, and a log of records with an action, an actor and a detail, under FNV-1a. What is hashed of
a record is its number, its three fields and the hash of the record before it, with the separator
0x1f between them. A field that contains the separator can be cut differently, and the chain then
verifies with fields that nobody has recorded.

## Main definitions

* `appendAuditRecord`, `verifyAuditChain`, `chainOf`: the chain under SHA-256
* `Admin.record`, `Admin.verify`, `Admin.logOf`: the log under FNV-1a
* `scheme`, `Admin.scheme`: both as chains of hashes

## Main results

* `linked_chainOf`, `Admin.linked_logOf`: chains and logs verify as they are built
* `determined_iff`, `Admin.determined_iff`: whether the fields of a record can be told
* `fieldsBound_iff`: when the stored hashes bind the fields
-/

namespace AuditChain

open Audit (Digest toLeBytes hexByte hexText genesis)
open HashChain (Scheme)

/-! ## What is hashed -/

/-- The character between two fields. -/
def separator : Char := Char.ofNat 0x1f

/-- The number of a record, its fields and the hash before it, one after the other. -/
def framed (sequence : UInt64) (first second third prevHash : String) : List UInt8 :=
  toLeBytes sequence ++ Utf8.encode first.toList ++ [0x1f] ++ Utf8.encode second.toList ++ [0x1f] ++
    Utf8.encode third.toList ++ [0x1f] ++ Utf8.encode prevHash.toList

/-! ## The chain under SHA-256 -/

structure AuditRecord where
  sequence : UInt64
  actor : String
  action : String
  timestamp : String
  prevHash : String
  hash : String
  deriving DecidableEq

structure AuditIntegrityError where
  error : String
  sequence : Option UInt64

/-- A time as it is written in RFC 3339. -/
structure Timestamp where
  text : String
  written : text.toList.all fun c => c ∈ "0123456789-:.+TZ".toList

/-- Compute the tamper-evident hash for an audit record. -/
def computeAuditHash (sha256 : Digest) (sequence : UInt64)
    (actor action timestamp prevHash : String) : String :=
  hexText (sha256 (framed sequence actor action timestamp prevHash))

/-- The record that is appended. -/
def nextRecord (sha256 : Digest) (chain : List AuditRecord) (actor action : String)
    (now : Timestamp) : AuditRecord :=
  let sequence := (chain.getLast?.map (·.sequence + 1)).getD 0
  let prevHash := (chain.getLast?.map (·.hash)).getD genesis
  ⟨sequence, actor, action, now.text, prevHash,
    computeAuditHash sha256 sequence actor action now.text prevHash⟩

/-- Append a new audit record to the chain. -/
def appendAuditRecord (sha256 : Digest) (chain : List AuditRecord) (actor action : String)
    (now : Timestamp) : AuditRecord × List AuditRecord :=
  let record := nextRecord sha256 chain actor action now
  (record, chain ++ [record])

structure Entry where
  actor : String
  action : String
  now : Timestamp

/-- The chain after a sequence of actions. -/
def chainOf (sha256 : Digest) (entries : List Entry) : List AuditRecord :=
  entries.foldl (fun chain e => (appendAuditRecord sha256 chain e.actor e.action e.now).2) []

/-- The chain of hashes that the records are. -/
def scheme (sha256 : Digest) : Scheme AuditRecord UInt64 (List UInt8) (Vector UInt8 32) String where
  number := UInt64.ofNat
  seq := AuditRecord.sequence
  prev := AuditRecord.prevHash
  hash := AuditRecord.hash
  message r := framed r.sequence r.actor r.action r.timestamp r.prevHash
  sum := sha256
  text := hexText
  text_injective _ _ h := Audit.hexText_inj h

/-- Verify the integrity of an audit chain. -/
def verifyAuditChain (sha256 : Digest) (chain : List AuditRecord) :
    Except AuditIntegrityError Unit :=
  (scheme sha256).verifyFrom
    (fun idx r => ⟨"Audit record sequence mismatch at index " ++ toString idx, some r.sequence⟩)
    (fun _ r => ⟨"Audit chain link broken at sequence " ++ toString r.sequence, some r.sequence⟩)
    (fun _ r => ⟨"Audit record hash mismatch at sequence " ++ toString r.sequence, some r.sequence⟩)
    0 genesis chain

/-! ## The log under FNV-1a -/

namespace Admin

structure AuditRecord where
  seq : UInt64
  action : String
  actor : String
  detail : String
  prevHash : String
  hash : String
  deriving DecidableEq

def feed (h : UInt64) (bytes : List UInt8) : UInt64 :=
  bytes.foldl (fun h b => (h ^^^ b.toUInt64) * 0x100000001b3) h

/-- FNV-1a -/
def fnv (bytes : List UInt8) : UInt64 := feed 0xcbf29ce484222325 bytes

/-- All sixteen digits of a number, in hexadecimal. -/
def paddedHex (h : UInt64) : String := String.ofList ((toLeBytes h).reverse.flatMap hexByte)

def digest (seq : UInt64) (action actor detail prevHash : String) : String :=
  paddedHex (fnv (framed seq action actor detail prevHash))

/-- The record that is appended. -/
def nextRecord (records : List AuditRecord) (action actor detail : String) : AuditRecord :=
  let seq := UInt64.ofNat records.length
  let prevHash := (records.getLast?.map (·.hash)).getD ""
  ⟨seq, action, actor, detail, prevHash, digest seq action actor detail prevHash⟩

/-- Append an audit record, chaining it to the current tail. -/
def record (records : List AuditRecord) (action actor detail : String) :
    AuditRecord × List AuditRecord :=
  let rec' := nextRecord records action actor detail
  (rec', records ++ [rec'])

structure Entry where
  action : String
  actor : String
  detail : String

/-- The log after a sequence of actions. -/
def logOf (entries : List Entry) : List AuditRecord :=
  entries.foldl (fun records e => (record records e.action e.actor e.detail).2) []

theorem paddedHex_injective : Function.Injective paddedHex := by
  intro h h' heq
  have hbytes := Audit.flatMap_hexByte_inj (String.ofList_injective heq)
  exact Audit.toLeBytes_inj (List.reverse_injective hbytes)

/-- The chain of hashes that the records are. -/
def scheme : Scheme AuditRecord UInt64 (List UInt8) UInt64 String where
  number := UInt64.ofNat
  seq := AuditRecord.seq
  prev := AuditRecord.prevHash
  hash := AuditRecord.hash
  message r := framed r.seq r.action r.actor r.detail r.prevHash
  sum := fnv
  text := paddedHex
  text_injective := paddedHex_injective

/-- Verify the whole chain. -/
def verify (records : List AuditRecord) : Except String Unit :=
  scheme.verifyFrom
    (fun i r => "audit record " ++ toString i ++ " has unexpected sequence " ++ toString r.seq)
    (fun i _ => "audit record " ++ toString i ++ " chain link broken")
    (fun i _ => "audit record " ++ toString i ++ " content hash mismatch")
    0 "" records

end Admin

/-! ## Fields that can be told -/

section Fields

variable {sequence : UInt64} {first second third prevHash : String}

/-- The fields are joined with the separator. -/
theorem framed_eq : framed sequence first second third prevHash = toLeBytes sequence ++
    Utf8.encode (Delimited.join separator [first.toList, second.toList, third.toList] ++
      separator :: prevHash.toList) := by
  have hcons : ∀ text, Utf8.encode (separator :: text) = [0x1f] ++ Utf8.encode text := by
    intro text
    rfl
  simp only [framed, Delimited.join_cons_cons, Delimited.join_singleton, Utf8.encode_append, hcons,
    List.append_assoc]

/-- **Fields can be told** from what is hashed if none contains the separator. -/
theorem told_iff (sequence : UInt64) (prevHash : String) : (∀ first' second' third' : String,
      framed sequence first' second' third' prevHash =
        framed sequence first second third prevHash →
      first' = first ∧ second' = second ∧ third' = third) ↔
    separator ∉ first.toList ∧ separator ∉ second.toList ∧ separator ∉ third.toList := by
  have hframed : ∀ first' second' third' : String,
      framed sequence first' second' third' prevHash =
          framed sequence first second third prevHash ↔
        Delimited.join separator [first'.toList, second'.toList, third'.toList] =
          Delimited.join separator [first.toList, second.toList, third.toList] := by
    intro first' second' third'
    rw [framed_eq, framed_eq, List.append_cancel_left_eq, Utf8.encode_inj,
      List.append_cancel_right_eq]
  have hreadable : Delimited.Readable separator [first.toList, second.toList, third.toList] ↔
      ∀ part ∈ [first.toList, second.toList, third.toList], separator ∉ part :=
    Delimited.readable_iff (Nat.le_add_left 2 1)
  simp only [List.forall_mem_cons, List.not_mem_nil, false_implies, implies_true, and_true]
    at hreadable
  rw [← hreadable]
  constructor
  · intro h parts hlen hjoin
    obtain ⟨a, b, c, rfl⟩ := List.length_eq_three.mp hlen
    obtain ⟨ha, hb, hc⟩ := h (String.ofList a) (String.ofList b) (String.ofList c)
      ((hframed ..).mpr (by simpa only [String.toList_ofList] using hjoin))
    rw [← ha, ← hb, ← hc, String.toList_ofList, String.toList_ofList, String.toList_ofList]
  · intro h first' second' third' heq
    have hparts := h [first'.toList, second'.toList, third'.toList] rfl ((hframed ..).mp heq)
    simpa only [List.cons.injEq, String.toList_inj, and_true] using hparts

end Fields

/-! ## The chain under SHA-256 binds its fields -/

section Chain

variable {sha256 : Digest}

theorem scheme_digest (r : AuditRecord) :
    (scheme sha256).text ((scheme sha256).sum ((scheme sha256).message r)) =
      computeAuditHash sha256 r.sequence r.actor r.action r.timestamp r.prevHash := rfl

theorem verifyAuditChain_eq_ok_iff {chain : List AuditRecord} :
    verifyAuditChain sha256 chain = .ok () ↔ (scheme sha256).Linked 0 genesis chain :=
  Scheme.verifyFrom_eq_ok_iff

/-- A record is numbered by its position. -/
theorem sequence_nextRecord {chain : List AuditRecord}
    (h : (scheme sha256).Linked 0 genesis chain) (actor action : String) (now : Timestamp) :
    (nextRecord sha256 chain actor action now).sequence = UInt64.ofNat chain.length := by
  change (chain.getLast?.map (·.sequence + 1)).getD 0 = UInt64.ofNat chain.length
  rcases List.eq_nil_or_concat chain with rfl | ⟨records, r, rfl⟩
  · rfl
  · rw [List.concat_eq_append] at h ⊢
    have hseq : r.sequence = UInt64.ofNat (0 + records.length) :=
      (Scheme.sound_of_linked h List.getElem?_concat_length).seq
    rw [List.getLast?_concat, List.length_append, List.length_singleton, UInt64.ofNat_add,
      Option.map_some, Option.getD_some, hseq, Nat.zero_add]
    rfl

theorem chainOf_eq_build (entries : List Entry) : chainOf sha256 entries =
    HashChain.build (fun chain e => nextRecord sha256 chain e.actor e.action e.now) entries := rfl

/-- **A chain verifies** as it is built. -/
theorem linked_chainOf (entries : List Entry) :
    (scheme sha256).Linked 0 genesis (chainOf sha256 entries) := by
  rw [chainOf_eq_build]
  apply Scheme.linked_build
  intro chain e h
  refine ⟨sequence_nextRecord h e.actor e.action e.now, rfl, ?_⟩
  rw [scheme_digest]
  rfl

theorem determined_iff {r : AuditRecord} : (scheme sha256).Determined r ↔
    separator ∉ r.actor.toList ∧ separator ∉ r.action.toList ∧ separator ∉ r.timestamp.toList := by
  rw [← told_iff r.sequence r.prevHash]
  constructor
  · intro h actor action timestamp heq
    have hr := h ⟨r.sequence, actor, action, timestamp, r.prevHash, r.hash⟩ rfl rfl rfl heq
    exact ⟨congrArg AuditRecord.actor hr, congrArg AuditRecord.action hr,
      congrArg AuditRecord.timestamp hr⟩
  · rintro h ⟨sequence, actor, action, timestamp, prevHash, hash⟩ rfl rfl rfl heq
    obtain ⟨rfl, rfl, rfl⟩ := h actor action timestamp heq
    rfl

theorem Timestamp.separator_notMem (now : Timestamp) : separator ∉ now.text.toList := by
  intro h
  have hwritten := List.all_eq_true.mp now.written separator h
  revert hwritten
  decide

end Chain

/-! ## The log under FNV-1a binds its fields -/

namespace Admin

theorem scheme_digest (r : AuditRecord) : scheme.text (scheme.sum (scheme.message r)) =
    digest r.seq r.action r.actor r.detail r.prevHash := by
  have htext : scheme.text = paddedHex := rfl
  have hsum : scheme.sum = fnv := rfl
  rw [htext, hsum]
  rfl

theorem verify_eq_ok_iff {records : List AuditRecord} :
    verify records = .ok () ↔ scheme.Linked 0 "" records :=
  Scheme.verifyFrom_eq_ok_iff

theorem logOf_eq_build (entries : List Entry) : logOf entries =
    HashChain.build (fun records e => nextRecord records e.action e.actor e.detail) entries := rfl

/-- **A log verifies** as it is built. -/
theorem linked_logOf (entries : List Entry) : scheme.Linked 0 "" (logOf entries) := by
  rw [logOf_eq_build]
  apply Scheme.linked_build
  intro records e _
  refine ⟨rfl, rfl, ?_⟩
  rw [scheme_digest]
  rfl

theorem determined_iff {r : AuditRecord} : scheme.Determined r ↔
    separator ∉ r.action.toList ∧ separator ∉ r.actor.toList ∧ separator ∉ r.detail.toList := by
  rw [← told_iff r.seq r.prevHash]
  constructor
  · intro h action actor detail heq
    have hr := h ⟨r.seq, action, actor, detail, r.prevHash, r.hash⟩ rfl rfl rfl heq
    exact ⟨congrArg AuditRecord.action hr, congrArg AuditRecord.actor hr,
      congrArg AuditRecord.detail hr⟩
  · rintro h ⟨seq, action, actor, detail, prevHash, hash⟩ rfl rfl rfl heq
    obtain ⟨rfl, rfl, rfl⟩ := h action actor detail heq
    rfl

end Admin

/-! ## Field binding -/

/-- No contents but those that were recorded verify under the stored hashes, unless hashes
collide. -/
def FieldsBound (sha256 : Digest) (chain : List AuditRecord) : Prop :=
  (scheme sha256).Binds (fun records => verifyAuditChain sha256 records = .ok ()) chain

def Admin.FieldsBound (log : List Admin.AuditRecord) : Prop :=
  Admin.scheme.Binds (fun records => Admin.verify records = .ok ()) log

/-- **The stored hashes bind the fields** of a chain or a log exactly if the separator has not been
recorded in one. -/
theorem fieldsBound_iff (sha256 : Digest) (entries : List Entry) (logged : List Admin.Entry) :
    (FieldsBound sha256 (chainOf sha256 entries) ↔
      ∀ e ∈ entries, separator ∉ e.actor.toList ∧ separator ∉ e.action.toList) ∧
    (Admin.FieldsBound (Admin.logOf logged) ↔
      ∀ e ∈ logged, separator ∉ e.action.toList ∧ separator ∉ e.actor.toList ∧
        separator ∉ e.detail.toList) := by
  constructor
  · have hverify : (fun records => verifyAuditChain sha256 records = .ok ()) =
        (scheme sha256).Linked 0 genesis := funext fun _ => propext verifyAuditChain_eq_ok_iff
    rw [FieldsBound, hverify, Scheme.binds_iff (linked_chainOf entries), chainOf_eq_build]
    apply HashChain.forall_mem_build
    intro chain e
    rw [determined_iff]
    exact and_congr_right fun _ => and_iff_left e.now.separator_notMem
  · have hverify : (fun records => Admin.verify records = .ok ()) = Admin.scheme.Linked 0 "" :=
      funext fun _ => propext Admin.verify_eq_ok_iff
    rw [Admin.FieldsBound, hverify, Scheme.binds_iff (Admin.linked_logOf logged),
      Admin.logOf_eq_build]
    apply HashChain.forall_mem_build
    intro records e
    exact Admin.determined_iff

/-- The first field ends at one separator or at the other. -/
theorem framed_eq_framed (third prevHash : String) :
    framed 0 "admin" "grant\x1frole" third prevHash =
      framed 0 "admin\x1fgrant" "role" third prevHash := by
  rw [framed_eq, framed_eq]
  rfl

/-- A time of the year 2024. -/
def newYear : Timestamp := ⟨"2024-01-01T00:00:00+00:00", by decide⟩

/-- Under no hash function are the fields bound. -/
theorem not_fieldsBound :
    ¬ (∃ sha256 : Digest, ∀ entries : List Entry, FieldsBound sha256 (chainOf sha256 entries)) ∧
      ¬ ∀ entries : List Admin.Entry, Admin.FieldsBound (Admin.logOf entries) := by
  constructor
  · rintro ⟨sha256, h⟩
    let r := nextRecord sha256 [] "admin\x1fgrant" "role" newYear
    let r' : AuditRecord := { r with actor := "admin", action := "grant\x1frole" }
    have hmessage : (scheme sha256).message r' = (scheme sha256).message r := framed_eq_framed ..
    have hne : r' ≠ r := by
      intro heq
      have haction : "grant\x1frole" = "role" := congrArg AuditRecord.action heq
      revert haction
      decide
    refine h [⟨"admin\x1fgrant", "role", newYear⟩] 0 r r' rfl hne rfl rfl (fun _ => hmessage)
      (verifyAuditChain_eq_ok_iff.mpr ⟨⟨rfl, rfl, ?_⟩, trivial⟩)
    rw [hmessage]
    rfl
  · intro h
    let r := Admin.nextRecord [] "admin\x1fgrant" "role" "merchant"
    let r' : Admin.AuditRecord := { r with action := "admin", actor := "grant\x1frole" }
    have hmessage : Admin.scheme.message r' = Admin.scheme.message r := framed_eq_framed ..
    have hne : r' ≠ r := by
      intro heq
      have hactor : "grant\x1frole" = "role" := congrArg Admin.AuditRecord.actor heq
      revert hactor
      decide
    refine h [⟨"admin\x1fgrant", "role", "merchant"⟩] 0 r r' rfl hne rfl rfl (fun _ => hmessage)
      (Admin.verify_eq_ok_iff.mpr ⟨⟨rfl, rfl, ?_⟩, trivial⟩)
    rw [hmessage, Admin.scheme_digest]
    rfl

end AuditChain
