import RemoteAccess.AuditCallers
import Mathlib.Data.List.Infix

/-! What the verifier says of a ledger made of unaltered records in another
selection or order. It follows the chain of hashes and nothing else, so it stops
at the first record that does not continue the chain, and a cut tail leaves no
trace. -/

namespace RemoteAccess.AuditTampering

open History AuditLog AuditCallers

variable (sha256 : List UInt8 → List UInt8)

def logAll (calls : List (Fields × Draw)) : Option (List AuditEvent) :=
  Transitions.run (fun chain call => (logEvent sha256 chain call.1 call.2).map Prod.snd) [] calls

variable {sha256}

theorem logAll_chained {calls : List (Fields × Draw)} {chain : List AuditEvent}
    (built : logAll sha256 calls = some chain) : Chained sha256 chain := by
  refine Transitions.run_invariant (Chained sha256) (chained_nil sha256) ?_ built
  intro before after call logged ok
  obtain ⟨⟨event, grown⟩, called, rfl⟩ := Option.map_eq_some_iff.mp logged
  obtain ⟨rfl, link, room, -⟩ := logEvent_cases called
  exact ok.concat link room

section Distinct

/-! Each hash stands for one place in the chain, and none is the one that stands
for its beginning. -/

variable {chain : List AuditEvent} (distinct : (chain.map AuditEvent.hash).Nodup)
  (noGenesis : genesisPrevHash ∉ chain.map AuditEvent.hash)
include distinct noGenesis

theorem prefix_eq_of_headHash {before kept : List AuditEvent} (b : before <+: chain)
    (k : kept <+: chain) (same : headHash before = headHash kept) : before = kept := by
  have recorded : ∀ {part : List AuditEvent} {e : AuditEvent}, part ++ [e] <+: chain →
      headHash (part ++ [e]) ∈ chain.map AuditEvent.hash := by
    intro part e start
    rw [headHash_concat]
    exact List.mem_map_of_mem (start.subset (by simp))
  obtain rfl | ⟨b', x, rfl⟩ := List.eq_nil_or_concat' before <;>
    obtain rfl | ⟨k', y, rfl⟩ := List.eq_nil_or_concat' kept
  · rfl
  · rw [← headHash_nil, same] at noGenesis
    exact absurd (recorded k) noGenesis
  · rw [← headHash_nil, ← same] at noGenesis
    exact absurd (recorded b) noGenesis
  · have here : ∀ {part : List AuditEvent} {e : AuditEvent}, part ++ [e] <+: chain →
        (chain.map AuditEvent.hash)[part.length]? = some e.hash := by
      rintro part e ⟨since, rfl⟩
      simp
    rw [headHash_concat, headHash_concat] at same
    have at_b := here b
    rw [same] at at_b
    obtain ⟨inside, -⟩ := List.getElem?_eq_some_iff.mp at_b
    have length : b'.length = k'.length :=
      (List.getElem?_inj inside distinct).mp (at_b.trans (here k).symm)
    have shorter : b' ++ [x] <+: k' ++ [y] :=
      List.prefix_of_prefix_length_le b k (by simp [length])
    exact shorter.eq_of_length (by simp [length])

variable (ok : Chained sha256 chain)
include ok

theorem prevHash_eq_iff {kept : List AuditEvent} {r : AuditEvent} (k : kept <+: chain)
    (drawn : r ∈ chain) : r.prevHash = headHash kept ↔ kept ++ [r] <+: chain := by
  constructor
  · intro expected
    obtain ⟨before, since, split⟩ := List.append_of_mem drawn
    have link := ok.linked before r since split
    have start : before ++ [r] <+: chain := ⟨since, by rw [split]; simp⟩
    rw [link.prevHash] at expected
    have same := prefix_eq_of_headHash distinct noGenesis
      ((List.prefix_append before [r]).trans start) k expected
    exact same ▸ start
  · rintro ⟨since, rfl⟩
    have link := ok.linked kept r since (by simp)
    exact link.prevHash

/-- The verifier goes along the chain as far as the records do. -/
theorem firstTampered_spec {kept records : List AuditEvent} (k : kept <+: chain)
    (drawn : ∀ r ∈ records, r ∈ chain) :
    (firstTampered sha256 (headHash kept) records = none ∧ kept ++ records <+: chain) ∨
    ∃ more r rest, records = more ++ r :: rest ∧ kept ++ more <+: chain ∧
      ¬ kept ++ more ++ [r] <+: chain ∧
      firstTampered sha256 (headHash kept) records = some r := by
  induction records generalizing kept with
  | nil => exact .inl ⟨rfl, by rwa [List.append_nil]⟩
  | cons r rest ih =>
    obtain ⟨here, others⟩ := List.forall_mem_cons.mp drawn
    have expected := prevHash_eq_iff distinct noGenesis ok k here
    by_cases next : kept ++ [r] <+: chain
    · obtain ⟨before, since, split⟩ := List.append_of_mem here
      have link := ok.linked before r since split
      have pass : firstTampered sha256 (headHash kept) (r :: rest) =
          firstTampered sha256 (headHash (kept ++ [r])) rest := by
        rw [firstTampered, if_neg (not_not.mpr (expected.mpr next)),
          if_neg (not_not.mpr link.hash.symm), headHash_concat]
      rw [pass]
      obtain ⟨accepted, whole⟩ | ⟨more, other, since, rfl, along, off, found⟩ := ih next others
      · exact .inl ⟨accepted, by rwa [List.append_assoc] at whole⟩
      · refine .inr ⟨r :: more, other, since, rfl, ?_, ?_, found⟩
        · rwa [List.append_assoc] at along
        · rwa [List.append_assoc kept] at off
    · refine .inr ⟨[], r, rest, rfl, by rwa [List.append_nil], by rwa [List.append_nil], ?_⟩
      rw [firstTampered, if_pos (fun same => next (expected.mp same))]

end Distinct

/-- Of the ledgers made of records of a chain, the verifier accepts exactly the
beginnings of the chain, and in the others it names the first record that departs
from it. -/
theorem rearranged_valid_iff_prefix (calls : List (Fields × Draw)) (chain : List AuditEvent)
    (built : logAll sha256 calls = some chain)
    (distinct : (chain.map AuditEvent.hash).Nodup)
    (noGenesis : genesisPrevHash ∉ chain.map AuditEvent.hash)
    (records : List AuditEvent) (drawn : ∀ r ∈ records, r ∈ chain) :
    ((verifyIntegrity sha256 records).isValid = true ↔ records <+: chain) ∧
    ((verifyIntegrity sha256 records).isValid = false →
      ∃ kept r rest, records = kept ++ r :: rest ∧ kept <+: chain ∧ ¬ kept ++ [r] <+: chain ∧
        (verifyIntegrity sha256 records).tamperedEventId = some r.eventId) := by
  have ok := logAll_chained built
  cases records with
  | nil => simp [verifyIntegrity]
  | cons first others =>
    obtain ⟨accepted, whole⟩ | ⟨kept, r, rest, split, along, off, found⟩ :=
      firstTampered_spec distinct noGenesis ok List.nil_prefix drawn
    · rw [headHash_nil] at accepted
      simp only [verifyIntegrity, accepted]
      exact ⟨⟨fun _ => whole, fun _ => trivial⟩, by simp⟩
    · rw [headHash_nil] at found
      simp only [List.nil_append] at along off
      simp only [verifyIntegrity, found]
      refine ⟨⟨by simp, fun start => ?_⟩, fun _ => ⟨kept, r, rest, split, along, off, rfl⟩⟩
      refine absurd (List.IsPrefix.trans ?_ start) off
      exact ⟨rest, by rw [split]; simp⟩

theorem rearranged_valid_iff_prefix_repeated :
    ∃ e, logAll (fun _ => loginDigest) [(loginFields, loginDraw)] = some [e] ∧
      (verifyIntegrity (fun _ => loginDigest) [e, e]).isValid = false ∧
      ¬ [e, e] <+: [e] := by
  obtain ⟨e, built, hash⟩ : ∃ e, logAll (fun _ => loginDigest) [(loginFields, loginDraw)] =
      some [e] ∧ e.hash = hexEncode loginDigest := ⟨_, rfl, rfl⟩
  have distinct : ([e].map AuditEvent.hash).Nodup := List.nodup_singleton _
  have noGenesis : genesisPrevHash ∉ [e].map AuditEvent.hash := by
    rw [List.map_singleton, List.mem_singleton, hash]
    decide
  have repeated : ¬ [e, e] <+: [e] := fun start => by simpa using start.length_le
  obtain ⟨valid, -⟩ :=
    rearranged_valid_iff_prefix _ [e] built distinct noGenesis [e, e] (by simp)
  exact ⟨e, built, Bool.eq_false_iff.mpr fun accepted => repeated (valid.mp accepted), repeated⟩

end RemoteAccess.AuditTampering
