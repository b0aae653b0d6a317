import Upse.Hw.Ps1.DmaRange
import Upse.Hw.Ps1.SoundPort

/-!
# Transfers between RAM and the sound RAM

The words that are sent to the sound RAM come back when the transfer address is set back and as many
words are taken from it, whatever the directions in RAM and wherever the window wraps.
-/

namespace Upse.Ps1

open ErrorState RingWindows

namespace SoundPort

/-- Words that are sent one after the other. -/
def sendWords (words : List Word) (spu : SoundPort) : SoundPort := words.foldl writeWord spu

/-- Words that are taken one after the other. -/
def takeWords : ℕ → SoundPort → List Word × SoundPort
  | 0, spu => ([], spu)
  | count + 1, spu => (spu.readWord.1 :: (takeWords count spu.readWord.2).1, (takeWords count spu.readWord.2).2)

theorem cursor_writeWord (spu : SoundPort) (value : Word) :
    (spu.writeWord value).transferAddress % soundRamSize = (spu.transferAddress + 4) % soundRamSize :=
  (moved_writeWord spu value).cursor

theorem moved_sendWords (words : List Word) (spu : SoundPort) :
    Moved (2 * words.length) spu (sendWords words spu) := by
  induction words generalizing spu with
  | nil => exact .refl spu
  | cons value words ih =>
    have whole := (moved_writeWord spu value).trans (ih (spu.writeWord value))
    rwa [Nat.add_comm, ← Nat.mul_succ] at whole

theorem length_flatMap_wordBytes (words : List Word) : (words.flatMap wordBytes).length = 4 * words.length := by
  induction words with
  | nil => rfl
  | cons value words ih =>
    rw [List.flatMap_cons, List.length_append, ih, List.length_cons, Nat.mul_succ, Nat.add_comm]
    rfl

theorem ram_sendWords {words : List Word} (fits : 4 * words.length ≤ soundRamSize) (spu : SoundPort) :
    (sendWords words spu).ram = put soundRamSize spu.ram spu.transferAddress (words.flatMap wordBytes) := by
  induction words generalizing spu with
  | nil =>
    funext x
    unfold put
    split <;> rfl
  | cons value words ih =>
    rw [List.length_cons] at fits
    have rest := ih (by omega) (spu.writeWord value)
    rw [← put_mod, cursor_writeWord, put_mod, ram_writeWord] at rest
    refine rest.trans ?_
    rw [List.flatMap_cons]
    refine put_append spu.ram spu.transferAddress ?_
    rw [length_flatMap_wordBytes]
    show 4 + _ ≤ _
    omega

theorem moved_takeWords (count : ℕ) (spu : SoundPort) : Moved (2 * count) spu (takeWords count spu).2 := by
  induction count generalizing spu with
  | zero => exact .refl spu
  | succ count ih =>
    have whole := (moved_readWord spu).trans (ih spu.readWord.2)
    rwa [Nat.add_comm, ← Nat.mul_succ] at whole

theorem ram_takeWords (count : ℕ) (spu : SoundPort) : (takeWords count spu).2.ram = spu.ram := by
  induction count generalizing spu with
  | zero => rfl
  | succ count ih => exact (ih _).trans (ram_readWord spu)

/-- The words that are taken are those of the window. -/
theorem takeWords_eq {words : List Word} {spu : SoundPort}
    (holds : get soundRamSize spu.ram spu.transferAddress (4 * words.length) = words.flatMap wordBytes) :
    (takeWords words.length spu).1 = words := by
  induction words generalizing spu with
  | nil => rfl
  | cons value words ih =>
    rw [List.length_cons, Nat.mul_succ, Nat.add_comm, get_add, List.flatMap_cons] at holds
    obtain ⟨first, rest⟩ := List.append_inj holds (length_get _ _ _)
    have next : spu.readWord.2.transferAddress % soundRamSize = (spu.transferAddress + 4) % soundRamSize :=
      (moved_readWord spu).cursor
    rw [← get_mod, ← next, get_mod, ← ram_readWord] at rest
    rw [List.length_cons, takeWords, readWord_eq first, ih rest]

end SoundPort

/-- The word at an address of RAM. -/
def ramWord (ram : ℕ → BitVec 8) (address : ℕ) : Word :=
  Memory.word (ram address) (ram (address + 1)) (ram (address + 2)) (ram (address + 3))

/-- RAM with a word stored. -/
def storeWord (ram : ℕ → BitVec 8) (address : ℕ) (value : Word) : ℕ → BitVec 8 :=
  Memory.replaceBytes ram (address + ·) (Memory.littleEndian value 4)

/-- RAM with words stored one after the other. -/
def storeWords (stores : List (ℕ × Word)) (ram : ℕ → BitVec 8) : ℕ → BitVec 8 :=
  stores.foldl (fun ram store => storeWord ram store.1 store.2) ram

variable {ram : ℕ → BitVec 8} {stores : List (ℕ × Word)}

theorem storeWord_outside {address x : ℕ} {value : Word}
    (outside : x < address ∨ address + 4 ≤ x) : storeWord ram address value x = ram x := by
  show (if x = address + 3 then _ else if x = address + 2 then _ else if x = address + 1 then _ else
    if x = address + 0 then _ else ram x) = ram x
  rw [if_neg (by omega), if_neg (by omega), if_neg (by omega), if_neg (by omega)]

theorem ramWord_storeWord (ram : ℕ → BitVec 8) (address : ℕ) (value : Word) :
    ramWord (storeWord ram address value) address = value := by
  have cell (k : ℕ) (small : k < 4) : storeWord ram address value (address + k) = (value >>> (8 * k)).setWidth 8 := by
    show (if address + k = address + 3 then _ else if address + k = address + 2 then _ else
      if address + k = address + 1 then _ else if address + k = address + 0 then _ else ram (address + k)) = _
    match k with
    | 0 => rw [if_neg (by omega), if_neg (by omega), if_neg (by omega), if_pos rfl]
    | 1 => rw [if_neg (by omega), if_neg (by omega), if_pos rfl]
    | 2 => rw [if_neg (by omega), if_pos rfl]
    | 3 => rw [if_pos rfl]
  have first := cell 0 (by decide)
  rw [Nat.add_zero] at first
  rw [ramWord, first, cell 1 (by decide), cell 2 (by decide), cell 3 (by decide)]
  exact SoundPort.word_wordBytes value

/-- Two words of RAM have no byte in common. -/
def Apart (a b : ℕ) : Prop := a + 4 ≤ b ∨ b + 4 ≤ a

theorem ramWord_storeWord_apart {a b : ℕ} {value : Word} (apart : Apart a b) :
    ramWord (storeWord ram b value) a = ramWord ram a := by
  unfold Apart at apart
  unfold ramWord
  rw [storeWord_outside (by omega), storeWord_outside (by omega), storeWord_outside (by omega),
    storeWord_outside (by omega)]

theorem storeWords_outside {x : ℕ}
    (outside : ∀ store ∈ stores, x < store.1 ∨ store.1 + 4 ≤ x) : storeWords stores ram x = ram x := by
  induction stores generalizing ram with
  | nil => rfl
  | cons store stores ih =>
    exact (ih fun other member => outside other (List.mem_cons_of_mem _ member)).trans
      (storeWord_outside (outside store List.mem_cons_self))

theorem ramWord_storeWords_apart {a : ℕ}
    (apart : ∀ store ∈ stores, Apart a store.1) : ramWord (storeWords stores ram) a = ramWord ram a := by
  induction stores generalizing ram with
  | nil => rfl
  | cons store stores ih =>
    exact (ih fun other member => apart other (List.mem_cons_of_mem _ member)).trans
      (ramWord_storeWord_apart (apart store List.mem_cons_self))

theorem ramWord_storeWords (apart : stores.Pairwise fun a b => Apart a.1 b.1)
    (ram : ℕ → BitVec 8) : ∀ store ∈ stores, ramWord (storeWords stores ram) store.1 = store.2 := by
  induction stores generalizing ram with
  | nil => exact nofun
  | cons first stores ih =>
    obtain ⟨others, rest⟩ := List.pairwise_cons.mp apart
    intro store member
    obtain rfl | later := List.mem_cons.mp member
    · exact (ramWord_storeWords_apart others).trans (ramWord_storeWord ram _ _)
    · exact ih rest _ store later

theorem ramWord_storeWords_range (address : ℕ → ℕ) (value : ℕ → Word) {count : ℕ}
    (apart : ((List.range count).map address).Pairwise Apart) (ram : ℕ → BitVec 8) {i : ℕ} (bound : i < count) :
    ramWord (storeWords ((List.range count).map fun i => (address i, value i)) ram) (address i) = value i := by
  have pairs : ((List.range count).map fun i => (address i, value i)).Pairwise fun a b => Apart a.1 b.1 :=
    List.pairwise_map.mpr (List.pairwise_map.mp apart)
  have member : (address i, value i) ∈ (List.range count).map fun i => (address i, value i) :=
    List.mem_map.mpr ⟨i, List.mem_range.mpr bound, rfl⟩
  exact ramWord_storeWords pairs ram (address i, value i) member

namespace DmaMachine

variable {D : Type} {m : DmaMachine D SoundPort}

theorem run_soundWord_send {address : ℕ} (inside : address + 4 ≤ ramSize) :
    (soundWord SoundPort.endpoint true address).run m =
      .ok () { m with sound := m.sound.writeWord (ramWord m.memory.ram address) } := by
  have inRam : ¬ ramSize < address + 4 := not_lt.mpr inside
  unfold soundWord readRamWord
  rw [if_pos rfl]
  show ((throwIf (ramSize < address + 4) DmaFault.panic >>= _) >>= _ : DmaM D SoundPort Unit).run m = _
  rw [throwIf, if_neg inRam]
  rfl

theorem run_soundWord_take {address : ℕ} (inside : address + 4 ≤ ramSize) :
    (soundWord SoundPort.endpoint false address).run m = .ok () { m with
      sound := m.sound.readWord.2
      memory := { m.memory with ram := storeWord m.memory.ram address m.sound.readWord.1 } } := by
  have inRam : ¬ ramSize < address + 4 := not_lt.mpr inside
  unfold soundWord writeRamWord
  rw [if_neg Bool.false_ne_true, throwIf, if_neg inRam]
  rfl

theorem run_forM_send {addresses : List ℕ} (inside : ∀ address ∈ addresses, address + 4 ≤ ramSize) :
    (addresses.forM (soundWord SoundPort.endpoint true)).run m = .ok () { m with
      sound := SoundPort.sendWords (addresses.map (ramWord m.memory.ram)) m.sound } := by
  induction addresses generalizing m with
  | nil => rfl
  | cons address addresses ih =>
    have first := run_soundWord_send (m := m) (inside address List.mem_cons_self)
    show (soundWord SoundPort.endpoint true address >>= fun _ => _).run m = _
    rw [run_bind_of_ok first]
    exact ih fun other member => inside other (List.mem_cons_of_mem _ member)

theorem run_forM_take {addresses : List ℕ} (inside : ∀ address ∈ addresses, address + 4 ≤ ramSize) :
    (addresses.forM (soundWord SoundPort.endpoint false)).run m = .ok () { m with
      sound := (SoundPort.takeWords addresses.length m.sound).2
      memory := { m.memory with
        ram := storeWords (addresses.zip (SoundPort.takeWords addresses.length m.sound).1) m.memory.ram } } := by
  induction addresses generalizing m with
  | nil => rfl
  | cons address addresses ih =>
    have first := run_soundWord_take (m := m) (inside address List.mem_cons_self)
    show (soundWord SoundPort.endpoint false address >>= fun _ => _).run m = _
    rw [run_bind_of_ok first]
    exact ih fun other member => inside other (List.mem_cons_of_mem _ member)

/-! ### Completions -/

/-- A transfer of the sound channel is due, over a valid range of RAM. -/
structure Due (m : DmaMachine D SoundPort) (event : DueEvent) (base words : ℕ) (decrement fromRam : Bool) : Prop where
  pending : m.dma.pending = some ⟨event.deadline, words⟩
  id : event.id = channel4Event
  madr : m.dma.madr.toNat = base
  step : (m.dma.chcr &&& chcrDecrement != 0) = decrement
  direction : (m.dma.chcr &&& chcrDirectionFromRam != 0) = fromRam
  some_words : 1 ≤ words
  valid : validateRamRange base words decrement ramSize = .ok ()

variable {event : DueEvent} {base words : ℕ} {decrement fromRam : Bool}

theorem Due.run (due : Due m event base words decrement fromRam) (few : words ≤ maxRamWords)
    {t : DmaMachine D SoundPort}
    (moves : ((wordAddresses base words decrement).forM (soundWord SoundPort.endpoint fromRam)).run
      { m with dma := { m.dma with pending := none } } = .ok () t) :
    ∃ t', (complete SoundPort.endpoint event).run m = .ok () t' ∧ t'.memory = t.memory ∧ t'.sound = t.sound := by
  obtain ⟨pending, id, rfl, rfl, rfl, some_words, valid⟩ := due
  obtain ⟨eventId, deadline⟩ := event
  obtain rfl : eventId = channel4Event := id
  have run := @run_complete_of_pending D SoundPort SoundPort.endpoint m _ pending
  obtain ⟨loop, -⟩ := @transferLoop_of_valid D SoundPort (soundWord SoundPort.endpoint
    (m.dma.chcr &&& chcrDirectionFromRam != 0)) _ _ _ some_words few valid
  unfold moved at run
  dsimp only at run
  rw [valid, loop, advanceAddress_eq few] at run
  exact ⟨_, run.trans (run_bind_of_ok moves), rfl, rfl⟩

theorem Due.inside (due : Due m event base words decrement fromRam) (few : words ≤ maxRamWords) :
    ∀ address ∈ wordAddresses base words decrement, address + 4 ≤ ramSize := by
  have all := (validateRamRange_eq_ok due.some_words few).mp due.valid
  intro address member
  obtain ⟨i, bound, rfl⟩ := List.mem_map.mp member
  exact (all i (List.mem_range.mp bound)).2

theorem Due.apart (due : Due m event base words decrement fromRam) (few : words ≤ maxRamWords) :
    (wordAddresses base words decrement).Pairwise Apart := by
  have all := (validateRamRange_eq_ok due.some_words few).mp due.valid
  refine List.pairwise_map.mpr (List.pairwise_lt_range.imp_of_mem fun {i j} _ member less => ?_)
  have bound := List.mem_range.mp member
  obtain ⟨reach, -⟩ := (transferAddress_eq_ok (by omega)).mp (all j bound).1
  unfold Apart wordAddress
  cases decrement with
  | false =>
    rw [if_neg Bool.false_ne_true, if_neg Bool.false_ne_true]
    omega
  | true =>
    rw [if_pos rfl] at reach
    rw [if_pos rfl, if_pos rfl]
    omega

theorem le_maxRamWords (fits : 4 * words ≤ soundRamSize) : words ≤ maxRamWords := by
  have size : soundRamSize = 524288 := rfl
  have bound : maxRamWords = 524288 := rfl
  omega

theorem length_ramWords (ram : ℕ → BitVec 8) (base words : ℕ) (decrement : Bool) :
    ((wordAddresses base words decrement).map (ramWord ram)).length = words := by
  rw [List.length_map, wordAddresses, List.length_map, List.length_range]

theorem Due.sends (due : Due m event base words decrement true) (fits : 4 * words ≤ soundRamSize) :
    ∃ m', (complete SoundPort.endpoint event).run m = .ok () m' ∧ m'.memory = m.memory ∧
      m'.sound.ram = put soundRamSize m.sound.ram m.sound.transferAddress
        (((wordAddresses base words decrement).map (ramWord m.memory.ram)).flatMap SoundPort.wordBytes) ∧
      SoundPort.Moved (2 * words) m.sound m'.sound := by
  have few := le_maxRamWords fits
  have count := length_ramWords m.memory.ram base words decrement
  obtain ⟨m', ran, memory, sound⟩ := due.run few (run_forM_send (due.inside few))
  refine ⟨m', ran, memory, ?_, ?_⟩
  · rw [sound]
    exact SoundPort.ram_sendWords (by rw [count]; exact fits) m.sound
  · have moves := SoundPort.moved_sendWords ((wordAddresses base words decrement).map (ramWord m.memory.ram)) m.sound
    rw [count] at moves
    rw [sound]
    exact moves

theorem Due.takes (due : Due m event base words decrement false) (fits : 4 * words ≤ soundRamSize)
    {values : List Word} (count : values.length = words)
    (holds : get soundRamSize m.sound.ram m.sound.transferAddress (4 * words) = values.flatMap SoundPort.wordBytes) :
    ∃ m', (complete SoundPort.endpoint event).run m = .ok () m' ∧
      m'.memory.ram = storeWords ((wordAddresses base words decrement).zip values) m.memory.ram ∧
      m'.sound.ram = m.sound.ram ∧ SoundPort.Moved (2 * words) m.sound m'.sound := by
  have few := le_maxRamWords fits
  have length : (wordAddresses base words decrement).length = words := by
    rw [wordAddresses, List.length_map, List.length_range]
  subst count
  have taken : (SoundPort.takeWords values.length m.sound).1 = values := SoundPort.takeWords_eq holds
  obtain ⟨m', ran, memory, sound⟩ := due.run few (run_forM_take (due.inside few))
  rw [length] at memory sound
  dsimp only at memory sound
  rw [taken] at memory
  refine ⟨m', ran, by rw [memory], ?_, ?_⟩
  · rw [sound, SoundPort.ram_takeWords]
  · rw [sound]
    exact SoundPort.moved_takeWords _ _

theorem zip_wordAddresses (read : ℕ → Word) (source base words : ℕ) (decrement' decrement : Bool) :
    (wordAddresses base words decrement).zip ((wordAddresses source words decrement').map read) =
      (List.range words).map fun i => (wordAddress base i decrement, read (wordAddress source i decrement')) := by
  rw [wordAddresses, wordAddresses, List.map_map, List.zip_map']
  rfl

/-- Words that go to the sound RAM come back from there: a transfer to the sound RAM and, after the transfer
address has been set back, a transfer of as many words from it leave the words of the source at the
destination, in either direction of each; nothing else of RAM and of the sound RAM changes, and each
transfer latches the interrupt if and only if it is enabled and one of its halfwords is in the granule of
the interrupt address. -/
theorem sound_round_trip (due : Due m event base words decrement true) (fits : 4 * words ≤ soundRamSize) :
    ∃ m', (complete SoundPort.endpoint event).run m = .ok () m' ∧ m'.memory = m.memory ∧
      (∀ x, (∀ k < 4 * words, x ≠ (m.sound.transferAddress + k) % soundRamSize) →
        m'.sound.ram x = m.sound.ram x) ∧
      SoundPort.Moved (2 * words) m.sound m'.sound ∧
      ∀ (n : DmaMachine D SoundPort) (event' : DueEvent) (base' : ℕ) (decrement' : Bool),
        Due n event' base' words decrement' false → n.sound.ram = m'.sound.ram →
        n.sound.transferAddress % soundRamSize = m.sound.transferAddress % soundRamSize →
        ∃ n', (complete SoundPort.endpoint event').run n = .ok () n' ∧
          (∀ i < words, ramWord n'.memory.ram (wordAddress base' i decrement') =
            ramWord m.memory.ram (wordAddress base i decrement)) ∧
          (∀ x, (∀ i < words, x < wordAddress base' i decrement' ∨ wordAddress base' i decrement' + 4 ≤ x) →
            n'.memory.ram x = n.memory.ram x) ∧
          n'.sound.ram = n.sound.ram ∧ SoundPort.Moved (2 * words) n.sound n'.sound := by
  have few := le_maxRamWords fits
  have count := length_ramWords m.memory.ram base words decrement
  have bytes := SoundPort.length_flatMap_wordBytes ((wordAddresses base words decrement).map (ramWord m.memory.ram))
  rw [count] at bytes
  obtain ⟨m', ran, memory, window, moved⟩ := due.sends fits
  refine ⟨m', ran, memory, fun x outside => ?_, moved, fun n event' base' decrement' due' same back => ?_⟩
  · rw [window]
    exact put_outside _ (by rw [bytes]; exact outside)
  · have holds : get soundRamSize n.sound.ram n.sound.transferAddress (4 * words) =
        ((wordAddresses base words decrement).map (ramWord m.memory.ram)).flatMap SoundPort.wordBytes := by
      rw [← get_mod, back, get_mod, same, window, ← bytes]
      exact get_put _ _ (by rw [bytes]; exact fits)
    obtain ⟨n', ran', stored, kept, moved'⟩ := due'.takes fits count holds
    rw [zip_wordAddresses] at stored
    refine ⟨n', ran', fun i bound => ?_, fun x outside => ?_, kept, moved'⟩
    · rw [stored]
      exact ramWord_storeWords_range (fun i => wordAddress base' i decrement')
        (fun i => ramWord m.memory.ram (wordAddress base i decrement)) (due'.apart few) n.memory.ram bound
    · rw [stored]
      refine storeWords_outside fun store member => ?_
      obtain ⟨i, bound, rfl⟩ := List.mem_map.mp member
      exact outside i (List.mem_range.mp bound)

/-- A machine with a transfer of three words due at clock 8. -/
def dueWords (memory : Memory) (sound : SoundPort) (madr chcr : Word) : DmaMachine Unit SoundPort :=
  ⟨{ DmaController.new with madr := madr, chcr := chcr, pending := some ⟨8, 3⟩ }, .new, [], memory, (), sound⟩

/-- The port at the last byte of the sound RAM. -/
def lastByte : SoundPort := ⟨fun _ => 0, soundRamSize - 1, 0, 0, 0, false⟩

/-- RAM whose bytes count up from one at `0x100`. -/
def countingMemory : Memory := { Memory.new .strict with ram := fun address => BitVec.ofNat 8 (address + 1) }

/-- Three words from `0x100` go around the end of the sound RAM and come back from `0x208` downwards. -/
theorem sound_round_trip_last : ∃ m' n' : DmaMachine Unit SoundPort,
    (complete SoundPort.endpoint ⟨channel4Event, 8⟩).run
      (dueWords countingMemory lastByte 0x100 chcrDirectionFromRam) = .ok () m' ∧
    (complete SoundPort.endpoint ⟨channel4Event, 8⟩).run
      (dueWords m'.memory { m'.sound with transferAddress := soundRamSize - 1 } 0x208 chcrDecrement) = .ok () n' ∧
    ramWord n'.memory.ram 0x208 = 0x04030201 ∧ ramWord n'.memory.ram 0x204 = 0x08070605 ∧
    ramWord n'.memory.ram 0x200 = 0x0c0b0a09 := by
  have due : Due (dueWords countingMemory lastByte 0x100 chcrDirectionFromRam) ⟨channel4Event, 8⟩ 0x100 3 false true :=
    ⟨rfl, rfl, rfl, by decide, by decide, by decide, by decide +kernel⟩
  obtain ⟨m', sent, -, -, -, back⟩ := sound_round_trip due (by decide)
  have due' : Due (dueWords m'.memory { m'.sound with transferAddress := soundRamSize - 1 } 0x208 chcrDecrement)
      ⟨channel4Event, 8⟩ 0x208 3 true false :=
    ⟨rfl, rfl, rfl, (by decide : (chcrDecrement &&& chcrDecrement != 0) = true),
      (by decide : (chcrDecrement &&& chcrDirectionFromRam != 0) = false), by decide, by decide +kernel⟩
  obtain ⟨n', taken, words, -⟩ := back _ _ _ _ due' rfl rfl
  exact ⟨m', n', sent, taken, words 0 (by decide), words 1 (by decide), words 2 (by decide)⟩

end DmaMachine

end Upse.Ps1
