import DeviceTrust.Proofs.Cipher.Chaining

/-!
# What the initialisation vector does

The vector enters a deciphered text at one place only: it is combined with the first block, after that
block has gone through the cipher. So another vector changes the first sixteen bytes by the bits
in which the two vectors differ, and nothing else.
-/

namespace DeviceTrust

namespace Bytes

variable {mask a b c : Bytes}

theorem length_xor (h : a.length = b.length) : (xor a b).length = b.length := by
  rw [xor, List.length_zipWith, h, Nat.min_self]

theorem byte_xor_xor_xor (x y z : UInt8) : (y ^^^ z) ^^^ (x ^^^ y) = x ^^^ z := by
  calc (y ^^^ z) ^^^ (x ^^^ y) = (x ^^^ y) ^^^ (y ^^^ z) := UInt8.xor_comm _ _
    _ = x ^^^ ((y ^^^ y) ^^^ z) := by rw [UInt8.xor_assoc, UInt8.xor_assoc]
    _ = x ^^^ z := by rw [UInt8.xor_self, UInt8.zero_xor]

theorem xor_xor_xor (hab : a.length = b.length) (hbc : b.length = c.length) :
    xor (xor b c) (xor a b) = xor a c := by
  apply List.ext_getElem
  · simp only [xor, List.length_zipWith, hab, hbc, Nat.min_self]
  · intro i hi hi'
    simp only [xor, List.getElem_zipWith]
    exact byte_xor_xor_xor _ _ _

def masked (mask b : Bytes) : Bytes := xor mask (b.take mask.length) ++ b.drop mask.length

theorem masked_append (h : mask.length ≤ a.length) (b : Bytes) : masked mask (a ++ b) = masked mask a ++ b := by
  rw [masked, masked, List.take_append_of_le_length h, List.drop_append_of_le_length h, List.append_assoc]

theorem length_masked (h : mask.length ≤ b.length) : (masked mask b).length = b.length := by
  have hstart : (b.take mask.length).length = mask.length := by rw [List.length_take, Nat.min_eq_left h]
  rw [masked, List.length_append, length_xor hstart.symm, hstart, List.length_drop]
  omega

end Bytes

namespace Aes.Block

theorem toBytes_xor (a b : Block) : (a.xor b).toBytes = Bytes.xor a.toBytes b.toBytes := rfl

end Aes.Block

namespace Chaining

open Aes

/-- **Another vector shows in the first block only**, and there it flips the bits in which the two differ. -/
theorem decipherBytes_vector (key : Bytes) {iv iv' text : Bytes} (hiv : iv.length = 16) (hiv' : iv'.length = 16)
    (htext : text ≠ []) :
    decipherBytes key iv' text = Bytes.masked (Bytes.xor iv iv') (decipherBytes key iv text) := by
  obtain ⟨b, rest, hblocks⟩ : ∃ b rest, toBlocks text = b :: rest := by
    rw [toBlocks, Bytes.blocks, dif_neg (by simp only [not_or]; exact ⟨by decide, htext⟩)]
    exact ⟨_, _, rfl⟩
  have hfirst {v : Bytes} (hv : v.length = 16) : decipherBytes key v text =
      Bytes.xor (decipher (roundKeys key) b).toBytes v ++ ofBlocks (decipherBlocks (roundKeys key) b rest) := by
    rw [decipherBytes, hblocks, decipherBlocks, ofBlocks_cons, Block.toBytes_xor, Block.toBytes_ofBytes hv]
  have hblock : (decipher (roundKeys key) b).toBytes.length = iv.length := hiv.symm
  have hmask : (Bytes.xor iv iv').length = (Bytes.xor (decipher (roundKeys key) b).toBytes iv).length := by
    rw [Bytes.length_xor (hiv.trans hiv'.symm), Bytes.length_xor hblock, hiv, hiv']
  rw [hfirst hiv, hfirst hiv', Bytes.masked, List.take_left' hmask.symm, List.drop_left' hmask.symm,
    Bytes.xor_xor_xor hblock (hiv.trans hiv'.symm)]

end Chaining

end DeviceTrust
