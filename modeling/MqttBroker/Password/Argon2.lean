import MqttBroker.Password.Blake2b

/-!
The Argon2 password hash in its three variants and two versions, without a secret key.
-/
namespace MqttBroker.Password.Argon2

/-- How the blocks to mix in are chosen: by the memory's content, by position alone, or by
position at first and by content afterwards. -/
inductive Variant where
  | dependent
  | independent
  | hybrid
  deriving DecidableEq, Repr

def Variant.number : Variant → Nat
  | dependent => 0
  | independent => 1
  | hybrid => 2

/-- The newer version mixes each pass into the memory, the older one replaces it. -/
inductive Version where
  | v16
  | v19
  deriving DecidableEq, Repr

def Version.number : Version → Nat
  | v16 => 16
  | v19 => 19

structure Settings where
  variant : Variant
  version : Version
  /-- Memory in KiB. -/
  memory : Nat
  passes : Nat
  lanes : Nat
  associatedData : Bytes
  deriving Repr

namespace Settings

/-- Columns in a quarter of a lane. -/
def segmentLength (s : Settings) : Nat := s.memory / (4 * s.lanes)

def laneLength (s : Settings) : Nat := 4 * s.segmentLength

def blockCount (s : Settings) : Nat := s.laneLength * s.lanes

end Settings

/-- One KiB of memory. -/
abbrev Block := Vector Word 128

def zeroBlock : Block := .replicate 128 0

def Block.xor (a b : Block) : Block := .ofFn fun i => a[i] ^^^ b[i]

/-- Hashing to any length: chained hashes give 32 bytes each and the last one the rest. -/
def longHash (length : Nat) (input : Bytes) : Bytes :=
  let start := littleEndian32 length ++ input
  if length ≤ 64 then Blake2b.hash length start
  else
    let rec chain (previous : Bytes) (rest : Nat) : Bytes :=
      if rest ≤ 64 then Blake2b.hash rest previous
      else
        let next := Blake2b.hash 64 previous
        next.take 32 ++ chain next (rest - 32)
    termination_by rest
    let first := Blake2b.hash 64 start
    first.take 32 ++ chain first (length - 32)

/-- Addition with a product of the low halves. -/
def sum (a b : Word) : Word := a + b + 2 * (a &&& 0xffffffff) * (b &&& 0xffffffff)

/-- Mix sixteen words of a block, standing at the given places. -/
def permute (place : Fin 16 → Fin 128) (block : Block) : Block :=
  columnsAndDiagonals.foldl (fun block (a, b, c, d) =>
    mixAt sum 0 0 block (place a) (place b) (place c) (place d)) block

/-- Row `i` of the block seen as eight rows of sixteen words. -/
def rowPlace (i : Fin 8) (k : Fin 16) : Fin 128 := ⟨16 * i + k, by omega⟩

/-- Column `i`, which takes two neighbouring words of every row. -/
def columnPlace (i : Fin 8) (k : Fin 16) : Fin 128 := ⟨16 * (k / 2) + 2 * i + k % 2, by omega⟩

/-- Compress two blocks into one. -/
def compress (x y : Block) : Block :=
  let r := x.xor y
  let rows := (List.finRange 8).foldl (fun block i => permute (rowPlace i) block) r
  let columns := (List.finRange 8).foldl (fun block i => permute (columnPlace i) block) rows
  r.xor columns

def Block.ofBytes (bytes : Bytes) : Block := wordsOf 128 bytes

def Block.toBytes (block : Block) : Bytes := block.toList.flatMap Word.toBytes

/-- Where the filling has come to. -/
structure Position where
  pass : Nat
  slice : Nat
  lane : Nat
  index : Nat

/-- The memory, lane after lane. -/
abbrev Memory := Array Block

namespace Position

variable (s : Settings) (p : Position)

def column : Nat := p.slice * s.segmentLength + p.index

def cell (lane column : Nat) : Nat := lane * s.laneLength + column

/-- The column before, cyclically. -/
def previousColumn : Nat :=
  if p.column s = 0 then s.laneLength - 1 else p.column s - 1

/-- Whether the choice of the reference block ignores the memory's content. -/
def isIndependent : Bool :=
  match s.variant with
  | .dependent => false
  | .independent => true
  | .hybrid => p.pass == 0 && p.slice < 2

/-- Pseudo-random words for 128 indices of a segment. -/
def addressBlock (counter : Nat) : Block :=
  let words := [p.pass, p.lane, p.slice, s.blockCount, s.passes, s.variant.number, counter]
  let input : Block := .ofFn fun i => ((words[i.val]?).getD 0).toUInt64
  compress zeroBlock (compress zeroBlock input)

/-- The word that chooses the reference block. -/
def pseudoRandom (memory : Memory) : Word :=
  if p.isIndependent s then
    let block := p.addressBlock s (p.index / 128 + 1)
    (block[p.index % 128]?).getD 0
  else (memory.getD (cell s p.lane (p.previousColumn s)) zeroBlock)[0]

/-- The cell of the reference block: only finished blocks are referred to, and nearer ones more
often. -/
def referenceCell (random : Word) : Nat :=
  let low := random.toNat % (1 <<< 32)
  let high := random.toNat >>> 32
  let lane := if p.pass = 0 ∧ p.slice = 0 then p.lane else high % s.lanes
  let finished :=
    if p.pass = 0 then p.slice * s.segmentLength else s.laneLength - s.segmentLength
  let area :=
    if lane = p.lane then finished + p.index - 1
    else if p.index = 0 then finished - 1 else finished
  let back := (area * ((low * low) >>> 32)) >>> 32
  let start := if p.pass = 0 ∨ p.slice = 3 then 0 else (p.slice + 1) * s.segmentLength
  cell s lane ((start + (area - 1 - back)) % s.laneLength)

/-- Compute the block at this position. -/
def fill (memory : Memory) : Memory :=
  let reference := p.referenceCell s (p.pseudoRandom s memory)
  let target := cell s p.lane (p.column s)
  let new := compress (memory.getD (cell s p.lane (p.previousColumn s)) zeroBlock)
    (memory.getD reference zeroBlock)
  let new :=
    if p.pass = 0 ∨ s.version = .v16 then new else new.xor (memory.getD target zeroBlock)
  memory.setIfInBounds target new

end Position

/-- All positions in the order in which they are filled; the first two columns are given. -/
def positions (s : Settings) : List Position :=
  (List.range s.passes).flatMap fun pass =>
    (List.range 4).flatMap fun slice =>
      (List.range s.lanes).flatMap fun lane =>
        ((List.range s.segmentLength).filter fun index => pass ≠ 0 ∨ slice ≠ 0 ∨ 2 ≤ index).map
          fun index => ⟨pass, slice, lane, index⟩

/-- The hash of everything that is not memory. -/
def seed (s : Settings) (password salt : Bytes) (length : Nat) : Bytes :=
  let field (bytes : Bytes) := littleEndian32 bytes.length ++ bytes
  Blake2b.hash 64 (littleEndian32 s.lanes ++ littleEndian32 length ++ littleEndian32 s.memory ++
    littleEndian32 s.passes ++ littleEndian32 s.version.number ++
    littleEndian32 s.variant.number ++ field password ++ field salt ++ field [] ++
    field s.associatedData)

/-- The memory with the first two columns of every lane. -/
def start (s : Settings) (seed : Bytes) : Memory :=
  Array.ofFn fun (i : Fin s.blockCount) =>
    let lane := i.val / s.laneLength
    let column := i.val % s.laneLength
    if column < 2 then
      .ofBytes (longHash 1024 (seed ++ littleEndian32 column ++ littleEndian32 lane))
    else zeroBlock

/-- The password hash of the given length. -/
def hash (s : Settings) (password salt : Bytes) (length : Nat) : Bytes :=
  let memory := (positions s).foldl (fun memory p => p.fill s memory)
    (start s (seed s password salt length))
  let last := (List.range s.lanes).foldl (fun block lane =>
    block.xor (memory.getD (Position.cell s lane (s.laneLength - 1)) zeroBlock)) zeroBlock
  longHash length last.toBytes

end MqttBroker.Password.Argon2
