import DeviceTrust.Cipher.Chaining
import DeviceTrust.Proofs.Cipher.Inverse

/-!
# Chaining is undone block by block

Bytes and blocks are two views of the same text as long as its length is a multiple of
sixteen. On blocks, deciphering recurses with the ciphertext block that enciphering handed
to the next step, so one induction inverts the whole chain.
-/

namespace DeviceTrust

namespace Bytes

theorem blocks_nil (size : Nat) : blocks size [] = [] := by
  rw [blocks, dif_pos (Or.inr rfl)]

theorem blocks_append {size : Nat} {a : Bytes} (hsize : 0 < size) (ha : a.length = size) (b : Bytes) :
    blocks size (a ++ b) = a :: blocks size b := by
  have hne : a ++ b ≠ [] := by
    intro h
    have hnil := (List.append_eq_nil_iff.mp h).1
    simp [hnil] at ha
    omega
  rw [blocks, dif_neg (by simp only [not_or]; exact ⟨by omega, hne⟩), List.take_left' ha, List.drop_left' ha]

end Bytes

namespace Aes

theorem Column.toBytes_ofBytes {b : Bytes} (h : 4 ≤ b.length) :
    (Column.ofBytes b).toBytes = b.take 4 := by
  match b, h with
  | w :: x :: y :: z :: rest, _ => rfl

theorem Block.ofBytes_toBytes (b : Block) : Block.ofBytes b.toBytes = b := rfl

theorem Block.length_toBytes (b : Block) : b.toBytes.length = 16 := rfl

theorem Block.toBytes_ofBytes {b : Bytes} (h : b.length = 16) : (Block.ofBytes b).toBytes = b := by
  have hlast : (b.drop 12).take 4 = b.drop 12 := List.take_of_length_le (by simp [h])
  have htake (i j : Nat) : b.take i ++ (b.drop i).take j = b.take (i + j) := List.take_add.symm
  simp only [toBytes, ofBytes]
  rw [Column.toBytes_ofBytes (by omega), Column.toBytes_ofBytes (by simp [h]),
    Column.toBytes_ofBytes (by simp [h]), Column.toBytes_ofBytes (by simp [h]), hlast, htake, htake,
    List.take_append_drop]

end Aes

namespace Chaining

open Aes

theorem toBlocks_append {a : Bytes} (ha : a.length = 16) (b : Bytes) :
    toBlocks (a ++ b) = Block.ofBytes a :: toBlocks b := by
  rw [toBlocks, Bytes.blocks_append (by decide) ha, List.map_cons, toBlocks]

theorem ofBlocks_cons (b : Block) (bs : List Block) : ofBlocks (b :: bs) = b.toBytes ++ ofBlocks bs :=
  List.flatMap_cons

theorem length_ofBlocks (bs : List Block) : (ofBlocks bs).length = 16 * bs.length := by
  induction bs with
  | nil => rfl
  | cons b bs ih =>
    rw [ofBlocks_cons, List.length_append, ih, Block.length_toBytes, List.length_cons]
    omega

theorem toBlocks_ofBlocks (bs : List Block) : toBlocks (ofBlocks bs) = bs := by
  induction bs with
  | nil => exact congrArg (List.map Block.ofBytes) (Bytes.blocks_nil 16)
  | cons b bs ih => rw [ofBlocks_cons, toBlocks_append b.length_toBytes, Block.ofBytes_toBytes, ih]

theorem ofBlocks_toBlocks {b : Bytes} (h : b.length % 16 = 0) : ofBlocks (toBlocks b) = b := by
  obtain ⟨n, hn⟩ : ∃ n, b.length = 16 * n := ⟨b.length / 16, by omega⟩
  clear h
  induction n generalizing b with
  | zero =>
    obtain rfl := List.length_eq_zero_iff.mp hn
    exact congrArg (fun bs => ofBlocks (List.map Block.ofBytes bs)) (Bytes.blocks_nil 16)
  | succ n ih =>
    have hfirst : (b.take 16).length = 16 := by rw [List.length_take]; omega
    have hrest : (b.drop 16).length = 16 * n := by rw [List.length_drop]; omega
    rw [← List.take_append_drop 16 b, toBlocks_append hfirst, ofBlocks_cons,
      Block.toBytes_ofBytes hfirst, ih hrest]

theorem length_toBlocks {b : Bytes} (h : b.length % 16 = 0) : 16 * (toBlocks b).length = b.length := by
  rw [← length_ofBlocks, ofBlocks_toBlocks h]

theorem length_encipherBlocks (keys : List Block) (previous : Block) (bs : List Block) :
    (encipherBlocks keys previous bs).length = bs.length := by
  induction bs generalizing previous with
  | nil => rfl
  | cons b bs ih => simp only [encipherBlocks, List.length_cons, ih]

theorem length_decipherBlocks (keys : List Block) (previous : Block) (bs : List Block) :
    (decipherBlocks keys previous bs).length = bs.length := by
  induction bs generalizing previous with
  | nil => rfl
  | cons b bs ih => simp only [decipherBlocks, List.length_cons, ih]

/-- **Deciphering a chain undoes enciphering it**, however many blocks there are. -/
theorem decipherBlocks_encipherBlocks (keys : List Block) (previous : Block) (bs : List Block) :
    decipherBlocks keys previous (encipherBlocks keys previous bs) = bs := by
  induction bs generalizing previous with
  | nil => rfl
  | cons b bs ih =>
    simp only [encipherBlocks, decipherBlocks]
    rw [decipher_encipher, Block.xor_self_right, ih]

theorem length_apply (d : Direction) (key iv : Bytes) {text : Bytes} (h : text.length % 16 = 0) :
    (d.apply key iv text).length = text.length := by
  cases d with
  | encipher =>
    change (ofBlocks (encipherBlocks _ _ _)).length = _
    rw [length_ofBlocks, length_encipherBlocks, length_toBlocks h]
  | decipher =>
    change (ofBlocks (decipherBlocks _ _ _)).length = _
    rw [length_ofBlocks, length_decipherBlocks, length_toBlocks h]

/-- **Deciphering whole blocks undoes enciphering them.** -/
theorem decipherBytes_encipherBytes (key iv : Bytes) {plain : Bytes} (h : plain.length % 16 = 0) :
    decipherBytes key iv (encipherBytes key iv plain) = plain := by
  rw [decipherBytes, encipherBytes, toBlocks_ofBlocks, decipherBlocks_encipherBlocks, ofBlocks_toBlocks h]

end Chaining

end DeviceTrust
