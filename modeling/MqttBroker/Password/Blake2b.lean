import MqttBroker.Protocol.Packet

/-!
The BLAKE2b hash without a key, and the mixing step it shares with Argon2.
-/
namespace MqttBroker.Password

abbrev Word := UInt64

namespace Word

def rotateRight (w : Word) (n : UInt64) : Word := (w >>> n) ||| (w <<< (64 - n))

/-- The word of up to eight bytes, least significant first. -/
def ofBytes : Bytes → Word
  | [] => 0
  | b :: bs => b.toUInt64 ||| (ofBytes bs <<< 8)

def toBytes (w : Word) : Bytes :=
  (List.range 8).map fun i => (w >>> (8 * i).toUInt64).toUInt8

end Word

/-- The low four bytes of a number, least significant first. -/
def littleEndian32 (n : Nat) : Bytes := (List.range 4).map fun i => .ofNat (n >>> (8 * i))

/-- Words of eight bytes each; the last one is filled with zeros. -/
def wordsOf (count : Nat) (bytes : Bytes) : Vector Word count :=
  .ofFn fun i => Word.ofBytes ((bytes.drop (8 * i)).take 8)

/-- Mix the four words at the given places, adding two words of the message. -/
def mixAt {n : Nat} (sum : Word → Word → Word) (x y : Word) (v : Vector Word n)
    (a b c d : Fin n) : Vector Word n :=
  let wa := sum v[a] v[b] + x
  let wd := Word.rotateRight (v[d] ^^^ wa) 32
  let wc := sum v[c] wd
  let wb := Word.rotateRight (v[b] ^^^ wc) 24
  let wa := sum wa wb + y
  let wd := Word.rotateRight (wd ^^^ wa) 16
  let wc := sum wc wd
  let wb := Word.rotateRight (wb ^^^ wc) 63
  (((v.set a wa).set b wb).set c wc).set d wd

/-- The places that are mixed in one go when sixteen words stand in four rows: the four columns,
then the four diagonals. -/
def columnsAndDiagonals : Vector (Fin 16 × Fin 16 × Fin 16 × Fin 16) 8 :=
  #v[(0, 4, 8, 12), (1, 5, 9, 13), (2, 6, 10, 14), (3, 7, 11, 15),
    (0, 5, 10, 15), (1, 6, 11, 12), (2, 7, 8, 13), (3, 4, 9, 14)]

namespace Blake2b

def initial : Vector Word 8 :=
  #v[0x6a09e667f3bcc908, 0xbb67ae8584caa73b, 0x3c6ef372fe94f82b, 0xa54ff53a5f1d36f1,
    0x510e527fade682d1, 0x9b05688c2b3e6c1f, 0x1f83d9abfb41bd6b, 0x5be0cd19137e2179]

/-- The order in which each round takes the words of the message. -/
def schedule : List (Vector (Fin 16) 16) :=
  let rounds := [
    #v[0, 1, 2, 3, 4, 5, 6, 7, 8, 9, 10, 11, 12, 13, 14, 15],
    #v[14, 10, 4, 8, 9, 15, 13, 6, 1, 12, 0, 2, 11, 7, 5, 3],
    #v[11, 8, 12, 0, 5, 2, 15, 13, 10, 14, 3, 6, 7, 1, 9, 4],
    #v[7, 9, 3, 1, 13, 12, 11, 14, 2, 6, 5, 10, 4, 0, 15, 8],
    #v[9, 0, 5, 7, 2, 4, 10, 15, 14, 1, 11, 12, 6, 8, 3, 13],
    #v[2, 12, 6, 10, 0, 11, 8, 3, 4, 13, 7, 5, 15, 14, 1, 9],
    #v[12, 5, 1, 15, 14, 13, 4, 10, 0, 7, 6, 3, 9, 2, 8, 11],
    #v[13, 11, 7, 14, 12, 1, 3, 9, 5, 0, 15, 4, 8, 6, 2, 10],
    #v[6, 15, 14, 9, 11, 3, 0, 8, 12, 2, 13, 7, 1, 4, 10, 5],
    #v[10, 2, 8, 4, 7, 6, 1, 5, 15, 11, 9, 14, 3, 12, 13, 0]]
  rounds ++ rounds.take 2

/-- Mix the columns and the diagonals, each with the next two words of the message. -/
def round (message : Vector Word 16) (v : Vector Word 16) (order : Vector (Fin 16) 16) :
    Vector Word 16 :=
  (List.finRange 8).foldl (fun v i =>
    let (a, b, c, d) := columnsAndDiagonals[i]
    mixAt (· + ·) message[order[2 * i.val]] message[order[2 * i.val + 1]] v a b c d) v

/-- Take one block of 128 bytes into the state; `total` bytes have been read with it. -/
def compress (state : Vector Word 8) (block : Bytes) (total : Nat) (last : Bool) :
    Vector Word 8 :=
  let message := wordsOf 16 block
  let start : Vector Word 16 := state ++ initial
  let start := start.set 12 (start[12] ^^^ total.toUInt64)
  let start := start.set 13 (start[13] ^^^ (total >>> 64).toUInt64)
  let start := if last then start.set 14 (~~~start[14]) else start
  let final := schedule.foldl (round message) start
  .ofFn fun i => state[i] ^^^ final[i] ^^^ final[i.val + 8]

/-- Absorb blocks; the last one is not empty unless the whole input is. -/
def absorb (state : Vector Word 8) (done : Nat) (input : Bytes) : Vector Word 8 :=
  if input.length ≤ 128 then compress state input (done + input.length) true
  else absorb (compress state (input.take 128) (done + 128) false) (done + 128) (input.drop 128)
termination_by input.length
decreasing_by simp; omega

/-- The hash of the input, in a form of up to 64 bytes. -/
def hash (length : Nat) (input : Bytes) : Bytes :=
  let start := initial.set 0 (initial[0] ^^^ 0x01010000 ^^^ length.toUInt64)
  ((absorb start 0 input).toList.flatMap Word.toBytes).take length

end Blake2b
end MqttBroker.Password
