import Mathlib.Logic.Function.Defs
import SecureBoot.KeyRecord
import SecureBoot.Proofs.ByteOrder

/-!
# KeyRecord — the octets of a key record, and the key in it

* Reading and writing a record undo each other (`toOctets_ofOctets`, `toOctets_injective`).
* The key in a record can only be rejected (`fault_of_rsaKey`).
-/

namespace SecureBoot.KeyRecord

/-! ## Octets -/

theorem toOctets_ofOctets (area : Octets Layout.keyRecordLength) :
    (ofOctets area).toOctets = area := by
  apply Octets.ext
  have hlen : area.toBytes.length = 776 := area.length_toBytes
  calc
    (ofOctets area).toOctets.toBytes
        = area.toBytes.take 384 ++ (area.toBytes.drop 384).take 4 ++
            (area.toBytes.drop 388).take 384 ++ (area.toBytes.drop 772).take 4 := rfl
    _ = area.toBytes.take (384 + 4 + 384 + 4) := by
          rw [List.take_add (i := 384 + 4 + 384), List.take_add (i := 384 + 4),
            List.take_add (i := 384)]
    _ = area.toBytes := List.take_of_length_le (Nat.le_of_eq hlen)

theorem toOctets_injective : Function.Injective toOctets := by
  intro a b h
  have hbytes : a.n.toBytes ++ a.e.toBytes ++ a.rr.toBytes ++ a.m.toBytes =
      b.n.toBytes ++ b.e.toBytes ++ b.rr.toBytes ++ b.m.toBytes := congrArg Octets.toBytes h
  rcases List.append_inj' hbytes (by simp) with ⟨hbytes, hm⟩
  rcases List.append_inj' hbytes (by simp) with ⟨hbytes, hrr⟩
  rcases List.append_inj' hbytes (by simp) with ⟨hn, he⟩
  rcases a with ⟨an, ae, arr, am⟩
  rcases b with ⟨bn, be, brr, bm⟩
  rw [mk.injEq]
  exact ⟨Octets.ext hn, Octets.ext he, Octets.ext hrr, Octets.ext hm⟩

/-! ## The key in a record -/

/-- A record of zeros, with no key in it that could be used. -/
def blank : KeyRecord :=
  ⟨Octets.fill 384 0, Octets.fill 4 0, Octets.fill 384 0, Octets.fill 4 0⟩

/-- The key in a record can only be rejected. -/
theorem fault_of_rsaKey {key : KeyRecord} {fault : Fault Empty} (h : key.rsaKey = .error fault) :
    ∃ rejection, fault = Fault.ofKey (.rejected rejection) := by
  unfold rsaKey at h
  split at h
  · cases h
  · rename_i rejection _
    cases h
    exact ⟨rejection, rfl⟩

theorem eq_publicKey_of_rsaKey {key : KeyRecord} {publicKey : Rsa.PublicKey}
    (h : key.rsaKey = .ok publicKey) :
    publicKey = key.publicKey := by
  unfold rsaKey at h
  split at h
  · cases h
    rfl
  · cases h

end SecureBoot.KeyRecord
