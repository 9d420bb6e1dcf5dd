import Heaty.Spec.MemoryHook

/-! `compressData` of utils.c in its two builds, and the part of LZ4 it calls. LZ4 is
not in the repository and is a parameter. -/

namespace Heaty

/-- Outcome of `LZ4_compress_default(src, dst, srcSize, dstCapacity)`; `stored` is what
was written from `dst` on. -/
structure Lz4Result where
  ret : ℤ
  stored : Bytes

/-- `lz4.h`. A text is decompressed as a whole, `none` for an error. -/
structure Lz4Api where
  compressBound : ℕ → ℕ
  compressDefault (dstCapacity : ℕ) (src : Bytes) : Lz4Result
  decompress : Bytes → Option Bytes

/-- `LZ4_MAX_INPUT_SIZE`. -/
def lz4MaxInputSize : ℕ := 0x7E000000

/-- The bound is that of `LZ4_COMPRESSBOUND`. A compression that does not fail returns how
many bytes it wrote, and just these are decompressed to what it was given. One that fails
may have written something too. -/
structure Lz4Api.Documented (api : Lz4Api) : Prop where
  bound : ∀ n ≤ lz4MaxInputSize, api.compressBound n = n + n / 255 + 16
  room : ∀ dstCapacity src, (api.compressDefault dstCapacity src).stored.length ≤ dstCapacity
  count : ∀ dstCapacity src, 0 < (api.compressDefault dstCapacity src).ret →
    ((api.compressDefault dstCapacity src).stored.length : ℤ) =
      (api.compressDefault dstCapacity src).ret
  decompress_stored : ∀ dstCapacity src, 0 < (api.compressDefault dstCapacity src).ret →
    api.decompress (api.compressDefault dstCapacity src).stored = some src
  decompress_longer : ∀ dstCapacity src more, 0 < (api.compressDefault dstCapacity src).ret →
    more ≠ [] → api.decompress ((api.compressDefault dstCapacity src).stored ++ more) ≠ some src

/-- LZ4 on what is too short for a match: a token for the number of literals, and these.
It compresses and decompresses nothing else. -/
def literalLz4 : Lz4Api where
  compressBound n := n + n / 255 + 16
  compressDefault dstCapacity src :=
    if src.length < 13 ∧ src.length < dstCapacity then
      ⟨src.length + 1, UInt8.ofNat (16 * src.length) :: src⟩
    else ⟨0, []⟩
  decompress
    | [] => none
    | token :: literals =>
        if literals.length < 13 ∧ token = UInt8.ofNat (16 * literals.length) then some literals
        else none

theorem literalLz4_documented : literalLz4.Documented where
  bound _ _ := rfl
  room dstCapacity src := by
    simp only [literalLz4]
    split_ifs with h
    · exact h.2
    · exact Nat.zero_le _
  count dstCapacity src h := by
    simp only [literalLz4] at h ⊢
    split_ifs at h ⊢
    · simp
    · exact absurd h (lt_irrefl 0)
  decompress_stored dstCapacity src h := by
    simp only [literalLz4] at h ⊢
    split_ifs at h with hsize
    · simp [hsize]
    · exact absurd h (lt_irrefl 0)
  decompress_longer dstCapacity src more h hmore := by
    simp only [literalLz4] at h ⊢
    split_ifs at h with hsize
    · simp [hsize, hmore]
    · exact absurd h (lt_irrefl 0)

namespace Utils

open Memory (Addr KMalloc null)

/-- What `compressData` leaves: the calls of the memory hooks, `*dst` with what lies
there, and what it returns. -/
structure Compressed where
  calls : List Memory.Call
  dst : Addr
  mem : Bytes
  size : ℕ

/-- `compressData`, with `CONFIG_LZ4` if the library is given. What it returns is an
`uint16_t`. -/
def compressData (lz4 : Option Lz4Api) (src : Bytes) (result : KMalloc) : Compressed :=
  match lz4 with
  | none =>
      let malloc := Memory.Call.malloc src.length .utilsCompressData result
      match result with
      | none => ⟨[malloc], null, [], 0⟩
      | some (dst, mem) => ⟨[malloc], dst, overwrite src mem, src.length⟩
  | some api =>
      let maxDstSize := api.compressBound src.length
      let malloc := Memory.Call.malloc maxDstSize .utilsCompressData result
      match result with
      | none => ⟨[malloc], null, [], 0⟩
      | some (dst, mem) =>
          let compressed := api.compressDefault maxDstSize src
          let mem := overwrite compressed.stored mem
          if compressed.ret ≤ 0 then ⟨[malloc, .free dst], dst, mem, 0⟩
          else ⟨[malloc], dst, mem, maxDstSize % 65536⟩

end Utils

end Heaty
