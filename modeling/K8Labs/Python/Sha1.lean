import K8Labs.Python.Sha256

/-!
# SHA-1

`hashlib.sha1`: blocks as for SHA-256, expanded to 80 words and compressed into the five words of
the state.

* `length_sha1`, `isHexDigit_sha1` : the digest has forty digits `0` to `9` and `a` to `f`.
-/

namespace Py

namespace Sha1

/-- The five words that are carried from block to block. -/
structure State where
  a : UInt32
  b : UInt32
  c : UInt32
  d : UInt32
  e : UInt32

/-- The state before the first block. -/
def State.initial : State := ⟨0x67452301, 0xefcdab89, 0x98badcfe, 0x10325476, 0xc3d2e1f0⟩

/-- Rotation to the left. -/
def rotl (x : UInt32) (n : UInt32) : UInt32 := (x <<< n) ||| (x >>> (32 - n))

/-- The schedule with the latest word first, extended `n` times. -/
def extend : ℕ → List UInt32 → List UInt32
  | 0, ws => ws
  | n + 1, ws =>
    extend n (rotl (ws.getD 2 0 ^^^ ws.getD 7 0 ^^^ ws.getD 13 0 ^^^ ws.getD 15 0) 1 :: ws)

/-- The function of round `t`, and its constant. -/
def mix (t : ℕ) (s : State) : UInt32 × UInt32 :=
  if t < 20 then ((s.b &&& s.c) ||| (~~~s.b &&& s.d), 0x5a827999)
  else if t < 40 then (s.b ^^^ s.c ^^^ s.d, 0x6ed9eba1)
  else if t < 60 then ((s.b &&& s.c) ||| (s.b &&& s.d) ||| (s.c &&& s.d), 0x8f1bbcdc)
  else (s.b ^^^ s.c ^^^ s.d, 0xca62c1d6)

/-- Round `t`, with its word of the schedule. -/
def round (s : State) (t : ℕ) (w : UInt32) : State :=
  ⟨rotl s.a 5 + (mix t s).1 + s.e + (mix t s).2 + w, s.a, rotl s.b 30, s.c, s.d⟩

/-- The compression of one block. -/
def compress (s : State) (block : List UInt8) : State :=
  let schedule := (extend 64 (Sha256.words block).reverse).reverse
  let r := schedule.zipIdx.foldl (fun r wt => round r wt.2 wt.1) s
  ⟨s.a + r.a, s.b + r.b, s.c + r.c, s.d + r.d, s.e + r.e⟩

/-- The state after `n` blocks. -/
def absorb : ℕ → State → List UInt8 → State
  | 0, s, _ => s
  | n + 1, s, bytes => absorb n (compress s (bytes.take 64)) (bytes.drop 64)

end Sha1

open Sha1 in
/-- `hashlib.sha1(bytes).hexdigest()`. -/
def sha1 (bytes : ByteArray) : String :=
  let padded := bytes.data.toList ++ Sha256.padding bytes.size
  let s := absorb (padded.length / 64) .initial padded
  String.ofList ([s.a, s.b, s.c, s.d, s.e].flatMap Sha256.hexWord)

theorem length_sha1 (bytes : ByteArray) : (sha1 bytes).toList.length = 40 := by
  rw [sha1, String.toList_ofList]
  rfl

theorem mem_hexDigits_of_mem_hexWord {w : UInt32} {c : Char} (hc : c ∈ Sha256.hexWord w) :
    c ∈ "0123456789abcdef".toList := by
  obtain ⟨k, -, rfl⟩ := List.mem_map.1 hc
  have hdigit : ∀ n < 16, Nat.digitChar n ∈ "0123456789abcdef".toList := by decide
  exact hdigit _ (Nat.mod_lt _ (by omega))

theorem isHexDigit_sha1 (bytes : ByteArray) : ∀ c ∈ (sha1 bytes).toList,
    c ∈ "0123456789abcdef".toList := by
  intro c hc
  rw [sha1, String.toList_ofList] at hc
  obtain ⟨w, -, hc⟩ := List.mem_flatMap.1 hc
  exact mem_hexDigits_of_mem_hexWord hc

example : sha1 ⟨#[0x61, 0x62, 0x63]⟩ = "a9993e364706816aba3e25717850c26c9cd0d89d" := by
  decide +kernel

end Py
