import PyGrove.Node.Restart

set_option autoImplicit false

namespace PyGrove.Node

open Words Frames PyGrove.Core

def Encodable (block : Block) : Prop := (blockCodec.encode block).length < 2 ^ 32

namespace ChainStore

def fresh : ChainStore := ⟨[], none, 0⟩

def appendAll (store : ChainStore) (blocks : List Block) : ChainStore :=
  blocks.foldl (fun current block => (current.append block .done).1) store

theorem fresh_holds : fresh.Holds [] := ⟨.nil, rfl, rfl⟩

theorem append_all_holds (store : ChainStore) (before blocks : List Block) (holds : store.Holds before)
    (encodable : ∀ block ∈ blocks, Encodable block) : (store.appendAll blocks).Holds (before ++ blocks) := by
  induction blocks generalizing store before with
  | nil => rwa [List.append_nil]
  | cons block tail ih =>
      have next := holds_append store before block holds (encodable block (by simp))
      have rest := ih _ _ next fun later member => encodable later (by simp [member])
      rwa [List.append_assoc, List.singleton_append] at rest

theorem open_holds (store : ChainStore) (blocks : List Block) (holds : store.Holds blocks) : openLog store.log = .ok store := by
  rw [openLog, readAllFromDisk, records_read blockCodec store.log blocks holds.whole]
  dsimp only
  rw [← holds.tip, ← holds.count]

theorem load_torn (store : ChainStore) (blocks : List Block) (interrupted : Block) (written : Nat)
    (holds : store.Holds blocks) (encodable : Encodable interrupted)
    (torn : written < (record blockCodec interrupted).length) :
    readAllFromDisk (store.append interrupted (.fails written)).1.log =
      if written < 4 then .ok blocks else .error .truncated := by
  rw [append, readAllFromDisk, records_then blockCodec store.log _ blocks holds.whole,
    read_torn blockCodec interrupted written encodable torn]
  split
  · rw [Except.map, List.append_nil]
  · rfl

end ChainStore

open ChainStore

def RecoversFrom (blocks : List Block) (interrupted : Block) (written : Nat) : Prop :=
  ∃ store, openLog ((fresh.appendAll blocks).append interrupted (.fails written)).1.log = .ok store ∧
    store.loadAll = .ok blocks ∧
    ∀ later : List Block, (∀ block ∈ later, Encodable block) →
      (store.appendAll later).loadAll = .ok (blocks ++ later) ∧
      ∃ reopened, openLog (store.appendAll later).log = .ok reopened ∧ reopened.loadAll = .ok (blocks ++ later)

theorem recovers_untouched (blocks : List Block) (interrupted : Block) (encodable : ∀ block ∈ blocks, Encodable block) :
    RecoversFrom blocks interrupted 0 := by
  have holds := append_all_holds fresh [] blocks fresh_holds encodable
  rw [List.nil_append] at holds
  have untouched : ((fresh.appendAll blocks).append interrupted (.fails 0)).1.log = (fresh.appendAll blocks).log := by
    rw [append, List.take_zero, List.append_nil]
  refine ⟨fresh.appendAll blocks, by rw [untouched, open_holds _ blocks holds], holds_load _ blocks holds, ?_⟩
  intro later sized
  have extended := append_all_holds _ blocks later holds sized
  have loaded := holds_load _ _ extended
  exact ⟨loaded, _, open_holds _ _ extended, loaded⟩

theorem torn_body_refused (blocks : List Block) (interrupted : Block) (written : Nat)
    (encodable : ∀ block ∈ blocks, Encodable block) (sized : Encodable interrupted)
    (torn : written < (record blockCodec interrupted).length) (inBody : 4 ≤ written) :
    openLog ((fresh.appendAll blocks).append interrupted (.fails written)).1.log = .error .truncated := by
  have holds := append_all_holds fresh [] blocks fresh_holds encodable
  rw [List.nil_append] at holds
  rw [openLog, load_torn _ blocks interrupted written holds sized torn, if_neg (Nat.not_lt_of_le inBody)]

theorem torn_length_misaligns (blocks : List Block) (interrupted : Block) (written : Nat)
    (encodable : ∀ block ∈ blocks, Encodable block) (inLength : written < 4) (nonzero : written ≠ 0) (store : ChainStore)
    (opened : openLog ((fresh.appendAll blocks).append interrupted (.fails written)).1.log = .ok store) (next : Block)
    (small : (blockCodec.encode next).length < 2 ^ 16) (odd : (blockCodec.encode next).length % 256 ≠ 0) :
    (store.appendAll [next]).loadAll = .error .truncated := by
  have holds := append_all_holds fresh [] blocks fresh_holds encodable
  rw [List.nil_append] at holds
  have log : store.log = (fresh.appendAll blocks).log ++ (record blockCodec interrupted).take written := by
    rw [openLog] at opened
    split at opened
    · cases opened
    · cases opened
      rfl
  have width : ((record blockCodec interrupted).take written).length = written := by
    rw [List.length_take, length_record]
    omega
  have leftover : (record blockCodec interrupted).take written ≠ [] := by
    intro empty
    rw [empty] at width
    exact nonzero width.symm
  have misaligned := read_misaligned blockCodec _ next leftover (by omega) small odd
  change readAll blockCodec (store.log ++ record blockCodec next) = .error .truncated
  rw [log, List.append_assoc, records_then blockCodec _ _ blocks holds.whole, misaligned]
  rfl

theorem genesis_length : (blockCodec.encode Sample.genesisBlock).length = 400 := by decide +kernel

theorem poke_length : (blockCodec.encode Sample.pokeNext.block).length = 815 := by decide +kernel

theorem genesis_encodable : Encodable Sample.genesisBlock := by
  rw [Encodable, genesis_length]
  decide

theorem poke_encodable : Encodable Sample.pokeNext.block := by
  rw [Encodable, poke_length]
  decide

theorem recovers_iff (blocks : List Block) (interrupted : Block) (written : Nat)
    (encodable : ∀ block ∈ blocks, Encodable block) (sized : Encodable interrupted)
    (torn : written < (record blockCodec interrupted).length) :
    RecoversFrom blocks interrupted written ↔ written = 0 := by
  constructor
  · rintro ⟨store, opened, _, goesOn⟩
    by_contra nonzero
    by_cases inLength : written < 4
    · have misaligned := torn_length_misaligns blocks interrupted written encodable inLength nonzero store opened
        Sample.genesisBlock (by rw [genesis_length]; decide) (by rw [genesis_length]; decide)
      have loaded := (goesOn [Sample.genesisBlock] (List.forall_mem_singleton.mpr genesis_encodable)).1
      rw [misaligned] at loaded
      cases loaded
    · have refused := torn_body_refused blocks interrupted written encodable sized torn (Nat.le_of_not_lt inLength)
      rw [refused] at opened
      cases opened
  · rintro rfl
    exact recovers_untouched blocks interrupted encodable

theorem recovers_from_nothing_written :
    RecoversFrom [Sample.genesisBlock] Sample.pokeNext.block 0 ↔ 0 = 0 :=
  recovers_iff [Sample.genesisBlock] Sample.pokeNext.block 0 (List.forall_mem_singleton.mpr genesis_encodable)
    poke_encodable (by rw [length_record, poke_length]; decide)

theorem half_written_block_stops_start :
    Encodable Sample.genesisBlock ∧ Encodable Sample.pokeNext.block ∧
      40 < (record blockCodec Sample.pokeNext.block).length ∧
      ¬ RecoversFrom [Sample.genesisBlock] Sample.pokeNext.block 40 := by
  have inside : 40 < (record blockCodec Sample.pokeNext.block).length := by
    rw [length_record, poke_length]
    decide
  refine ⟨genesis_encodable, poke_encodable, inside, ?_⟩
  rintro ⟨store, opened, _⟩
  have refused := torn_body_refused [Sample.genesisBlock] Sample.pokeNext.block 40
    (List.forall_mem_singleton.mpr genesis_encodable) poke_encodable inside (by decide)
  rw [refused] at opened
  cases opened

end PyGrove.Node
