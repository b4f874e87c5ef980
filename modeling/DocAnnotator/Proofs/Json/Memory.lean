import DocAnnotator.Json.Merge

/-! ## Merging objects in memory

    Objects that are merged may be shared. In memory a field holds an object by its address, and
    setting a field changes the object at that address for all who hold it. Merging copies the base
    and sets fields of the copy only, so it changes no object that was there before.

    - `Memory`, `Reads`: objects by address, and the value that is read from an address.
    - `Merges`, `Puts`: what merging does to a memory, step by step.
    - `Merges.frame`: no object that was there before is changed.
    - `Merges.reads`: the value that is read from the result is the merged one.
    - `exists_merges`: objects that can be read can be merged.
-/

namespace DocAnnotator.Json

/-! ### Objects by address -/

/-- What a field holds: an object by its address, or any other value as it is. -/
inductive Held where
  | plain (value : Json)
  | object (address : Nat)

/-- An object in memory. -/
abbrev Cell := List (Text × Held)

namespace Cell

/-- What the field of a key holds. -/
def get? (key : Text) : Cell → Option Held
  | [] => none
  | (k, held) :: rest => if k = key then some held else get? key rest

/-- Sets the field of a key: in place where the key is known, at the end where it is new. -/
def put (key : Text) (held : Held) : Cell → Cell
  | [] => [(key, held)]
  | (k, old) :: rest => if k = key then (k, held) :: rest else (k, old) :: put key held rest

end Cell

/-- The objects in memory, each at the address that is its position. -/
abbrev Memory := List Cell

namespace Memory

/-- Sets a field of the object at an address. -/
def put (memory : Memory) (address : Nat) (key : Text) (held : Held) : Memory :=
  memory.modify address (Cell.put key held)

/-- What a field of the object at an address holds. -/
def get? (memory : Memory) (address : Nat) (key : Text) : Option Held :=
  memory[address]?.bind (Cell.get? key)

/-- The objects at all addresses but some. -/
def outside (memory : Memory) (hidden : List Nat) (address : Nat) : Option Cell :=
  if address ∈ hidden then none else memory[address]?

theorem outside_eq_some {memory : Memory} {hidden : List Nat} {address : Nat} {cell : Cell} :
    memory.outside hidden address = some cell ↔ address ∉ hidden ∧ memory[address]? = some cell := by
  unfold outside
  by_cases h : address ∈ hidden <;> simp [h]

theorem outside_nil (memory : Memory) : memory.outside [] = (memory[·]?) := by
  funext address
  simp [outside]

@[simp] theorem length_put (memory : Memory) (address : Nat) (key : Text) (held : Held) :
    (memory.put address key held).length = memory.length := List.length_modify ..

theorem getElem?_put_self {memory : Memory} {address : Nat} {cell : Cell}
    (h : memory[address]? = some cell) (key : Text) (held : Held) :
    (memory.put address key held)[address]? = some (cell.put key held) := by
  simp [put, h]

theorem getElem?_put_of_ne {address other : Nat} (h : other ≠ address) (memory : Memory)
    (key : Text) (held : Held) : (memory.put address key held)[other]? = memory[other]? := by
  simp [put, Ne.symm h]

end Memory

/-! ### Values that are read -/

mutual
/-- The value is read from what a field holds, where `look` finds the object at an address. -/
def Reads (look : Nat → Option Cell) : Json → Held → Prop
  | .obj fields, held => ∃ address cell, held = .object address ∧ look address = some cell ∧
      ReadsAll look fields cell
  | value, held => held = .plain value

/-- The fields are read from an object, one by one. -/
def ReadsAll (look : Nat → Option Cell) : List (Text × Json) → Cell → Prop
  | [], cell => cell = []
  | (key, value) :: rest, cell => ∃ held more, cell = (key, held) :: more ∧
      Reads look value held ∧ ReadsAll look rest more
end

section Reads

variable {look look' : Nat → Option Cell}

mutual
/-- What is read stays, where the objects that are found stay. -/
theorem Reads.mono (hle : ∀ address cell, look address = some cell → look' address = some cell) :
    ∀ {value : Json} {held : Held}, Reads look value held → Reads look' value held
  | .obj _, _, ⟨address, cell, hheld, hcell, hfields⟩ =>
    ⟨address, cell, hheld, hle address cell hcell, ReadsAll.mono hle hfields⟩
  | .null, _, h => h
  | .bool _, _, h => h
  | .num _, _, h => h
  | .str _, _, h => h
  | .arr _, _, h => h

theorem ReadsAll.mono (hle : ∀ address cell, look address = some cell → look' address = some cell) :
    ∀ {fields : List (Text × Json)} {cell : Cell},
      ReadsAll look fields cell → ReadsAll look' fields cell
  | [], _, h => h
  | (_, _) :: _, _, ⟨held, more, hcell, hvalue, hrest⟩ =>
    ⟨held, more, hcell, Reads.mono hle hvalue, ReadsAll.mono hle hrest⟩
end

theorem ReadsAll.get? {fields : Fields} {cell : Cell} (h : ReadsAll look fields cell) (key : Text) :
    (fields.get? key = none ∧ cell.get? key = none) ∨
      ∃ value held, fields.get? key = some value ∧ cell.get? key = some held ∧
        Reads look value held := by
  induction fields generalizing cell with
  | nil =>
    obtain rfl : cell = [] := h
    exact .inl ⟨rfl, rfl⟩
  | cons first rest ih =>
    obtain ⟨k, v⟩ := first
    obtain ⟨held, more, rfl, hvalue, hrest⟩ := h
    by_cases hkey : k = key
    · exact .inr ⟨v, held, by simp [Fields.get?, hkey], by simp [Cell.get?, hkey], hvalue⟩
    · simp only [Fields.get?, Cell.get?, if_neg hkey]
      exact ih hrest

theorem ReadsAll.put {fields : Fields} {cell : Cell} (h : ReadsAll look fields cell) (key : Text)
    {value : Json} {held : Held} (hvalue : Reads look value held) :
    ReadsAll look (fields.put key value) (cell.put key held) := by
  induction fields generalizing cell with
  | nil =>
    obtain rfl : cell = [] := h
    exact ⟨held, [], rfl, hvalue, rfl⟩
  | cons first rest ih =>
    obtain ⟨k, v⟩ := first
    obtain ⟨old, more, rfl, hold, hrest⟩ := h
    by_cases hkey : k = key
    · simp only [Fields.put, Cell.put, if_pos hkey]
      exact ⟨held, more, rfl, hvalue, hrest⟩
    · simp only [Fields.put, Cell.put, if_neg hkey]
      exact ⟨old, _, rfl, hold, ih hrest⟩

theorem reads_object {value : Json} {address : Nat} (h : Reads look value (.object address)) :
    ∃ fields cell, value = .obj fields ∧ look address = some cell ∧ ReadsAll look fields cell := by
  match value, h with
  | .obj fields, ⟨_, cell, rfl, hcell, hfields⟩ => exact ⟨fields, cell, rfl, hcell, hfields⟩

theorem reads_obj {fields : Fields} {held : Held} (h : Reads look (.obj fields) held) :
    ∃ address, held = .object address := by
  obtain ⟨address, -, rfl, -⟩ := h
  exact ⟨address, rfl⟩

end Reads

/-! ### Merging -/

mutual
/-- Merging the objects at two addresses: the base is copied to a new address, and the fields of
    the override are put into the copy, which is the result. -/
inductive Merges : Memory → Nat → Nat → Memory → Nat → Prop
  | copy {memory memory' : Memory} {base override : Nat} {cell entries : Cell}
      (hbase : memory[base]? = some cell) (hoverride : memory[override]? = some entries)
      (hputs : Puts (memory ++ [cell]) memory.length entries memory') :
      Merges memory base override memory' memory.length

/-- Putting entries into the object at an address, one after the other. Where both sides hold an
    object, the two are merged and the result is put. -/
inductive Puts : Memory → Nat → Cell → Memory → Prop
  | done {memory : Memory} {copy : Nat} : Puts memory copy [] memory
  | merged {memory memory₁ memory' : Memory} {copy a b result : Nat} {key : Text} {rest : Cell}
      (hcurrent : memory.get? copy key = some (.object a)) (hmerges : Merges memory a b memory₁ result)
      (hrest : Puts (memory₁.put copy key (.object result)) copy rest memory') :
      Puts memory copy ((key, .object b) :: rest) memory'
  | replaced {memory memory' : Memory} {copy : Nat} {key : Text} {held : Held} {rest : Cell}
      (hother : ∀ a b, memory.get? copy key = some (.object a) → held ≠ .object b)
      (hrest : Puts (memory.put copy key held) copy rest memory') :
      Puts memory copy ((key, held) :: rest) memory'
end

/-! ### What merging leaves alone -/

mutual
/-- Merging makes a new object, and changes none that was there before. -/
theorem Merges.frame : ∀ {memory memory' : Memory} {base override result : Nat},
    Merges memory base override memory' result →
      memory.length ≤ result ∧ memory.length ≤ memory'.length ∧
        ∀ address < memory.length, memory'[address]? = memory[address]?
  | _, _, _, _, _, .copy _ _ hputs => by
    obtain ⟨hlength, hsame⟩ := hputs.frame
    rw [List.length_append, List.length_singleton] at hlength
    refine ⟨Nat.le_refl _, by omega, ?_⟩
    intro address haddress
    -- the copy is the only object that is written to, and it is new
    rw [hsame address (by simp; omega) (by omega), List.getElem?_append_left haddress]

/-- Putting entries into an object changes no other that was there before. -/
theorem Puts.frame : ∀ {memory memory' : Memory} {copy : Nat} {entries : Cell},
    Puts memory copy entries memory' → memory.length ≤ memory'.length ∧
      ∀ address < memory.length, address ≠ copy → memory'[address]? = memory[address]?
  | _, _, _, _, .done => ⟨Nat.le_refl _, fun _ _ _ => rfl⟩
  | _, _, _, _, .merged _ hmerges hrest => by
    obtain ⟨-, hgrows, hframe⟩ := hmerges.frame
    obtain ⟨hlength, hsame⟩ := hrest.frame
    rw [Memory.length_put] at hlength hsame
    refine ⟨by omega, ?_⟩
    intro address haddress hne
    rw [hsame address (by omega) hne, Memory.getElem?_put_of_ne hne, hframe address haddress]
  | _, _, _, _, .replaced _ hrest => by
    obtain ⟨hlength, hsame⟩ := hrest.frame
    rw [Memory.length_put] at hlength hsame
    refine ⟨hlength, ?_⟩
    intro address haddress hne
    rw [hsame address haddress hne, Memory.getElem?_put_of_ne hne]
end

/-- What was read before merging is read after it. -/
theorem Merges.keeps {memory memory' : Memory} {base override result : Nat}
    (h : Merges memory base override memory' result) {value : Json} {held : Held}
    (hreads : Reads (memory[·]?) value held) : Reads (memory'[·]?) value held := by
  obtain ⟨-, -, hsame⟩ := h.frame
  refine hreads.mono fun address cell hcell => ?_
  have hlt : address < memory.length := (List.getElem?_eq_some_iff.1 hcell).1
  exact (hsame address hlt).trans hcell

/-! ### What is read from the result -/

/-- Where not both sides are objects, the value of the override counts. -/
theorem mergeValue_eq_self {current : Option Json} {value : Json}
    (h : ∀ base fields, current = some (.obj base) → value ≠ .obj fields) :
    mergeValue current value = value := by
  unfold mergeValue
  split
  next fields =>
    split
    next base => exact absurd rfl (h base fields rfl)
    next => rfl
  next => rfl

/-- The state between two entries: the object at `copy` is read as `base`, the entries that are
    left as `override`, and neither through `copy` itself nor through the copies around it. -/
structure Ready (memory : Memory) (hidden : List Nat) (copy : Nat) (base override : Fields)
    (entries : Cell) : Prop where
  bound : ∀ address ∈ copy :: hidden, address < memory.length
  copied : ∃ cell, memory[copy]? = some cell ∧
    ReadsAll (memory.outside (copy :: hidden)) base cell
  left : ReadsAll (memory.outside (copy :: hidden)) override entries

section Ready

variable {memory memory₁ : Memory} {hidden : List Nat} {copy : Nat} {base more : Fields}
  {key : Text} {value : Json} {held : Held} {rest : Cell}

/-- What the copy holds so far is what is read so far. -/
theorem Ready.get? {override : Fields} {entries : Cell}
    (h : Ready memory hidden copy base override entries) (key : Text) :
    (base.get? key = none ∧ memory.get? copy key = none) ∨
      ∃ value held, base.get? key = some value ∧ memory.get? copy key = some held ∧
        Reads (memory.outside (copy :: hidden)) value held := by
  obtain ⟨cell, hcell, hreads⟩ := h.copied
  have hget : memory.get? copy key = cell.get? key := by simp [Memory.get?, hcell]
  rw [hget]
  exact hreads.get? key

/-- One entry is put into the copy: a value that is read without the copy, in a memory that has
    grown. -/
theorem Ready.put (h : Ready memory hidden copy base ((key, value) :: more) ((key, held) :: rest))
    (hgrows : memory.length ≤ memory₁.length)
    (hsame : ∀ address < memory.length, memory₁[address]? = memory[address]?)
    {new : Json} {newHeld : Held} (hnew : Reads (memory₁.outside (copy :: hidden)) new newHeld) :
    Ready (memory₁.put copy key newHeld) hidden copy (base.put key new) more rest := by
  obtain ⟨cell, hcell, hreads⟩ := h.copied
  obtain ⟨_, _, hentries, -, hleft⟩ := h.left
  obtain ⟨-, rfl⟩ := List.cons.inj hentries
  -- outside the copies nothing is lost, neither by growing nor by putting
  have hput : ∀ address cell, memory₁.outside (copy :: hidden) address = some cell →
      (memory₁.put copy key newHeld).outside (copy :: hidden) address = some cell := by
    intro address cell hlook
    obtain ⟨hout, hlook⟩ := Memory.outside_eq_some.1 hlook
    have hne : address ≠ copy := fun heq => hout (heq ▸ List.mem_cons_self)
    exact Memory.outside_eq_some.2 ⟨hout, by rw [Memory.getElem?_put_of_ne hne, hlook]⟩
  have hkeep : ∀ address cell, memory.outside (copy :: hidden) address = some cell →
      (memory₁.put copy key newHeld).outside (copy :: hidden) address = some cell := by
    intro address cell hlook
    obtain ⟨hout, hlook⟩ := Memory.outside_eq_some.1 hlook
    have hlt : address < memory.length := (List.getElem?_eq_some_iff.1 hlook).1
    exact hput address cell (Memory.outside_eq_some.2 ⟨hout, by rw [hsame address hlt, hlook]⟩)
  have hcopy : memory₁[copy]? = some cell := by
    rw [hsame copy (h.bound copy List.mem_cons_self), hcell]
  refine ⟨?_, ⟨_, Memory.getElem?_put_self hcopy key newHeld, ?_⟩, hleft.mono hkeep⟩
  · intro address haddress
    have := h.bound address haddress
    rw [Memory.length_put]
    omega
  · exact (hreads.mono hkeep).put key (hnew.mono hput)

/-- An entry of the override is read with its key. -/
theorem Ready.cons {override : Fields}
    (h : Ready memory hidden copy base override ((key, held) :: rest)) :
    ∃ value more, override = (key, value) :: more ∧
      Reads (memory.outside (copy :: hidden)) value held := by
  match override, h.left with
  | (k, v) :: more, ⟨_, _, hentries, hvalue, _⟩ =>
    obtain ⟨hfirst, -⟩ := List.cons.inj hentries
    obtain ⟨rfl, rfl⟩ := Prod.mk.inj hfirst
    exact ⟨v, more, rfl, hvalue⟩

/-- Where not both sides hold an object, the entry is put as it is. -/
theorem Ready.mergeValue_replaced
    (h : Ready memory hidden copy base ((key, value) :: more) ((key, held) :: rest))
    (hother : ∀ a b, memory.get? copy key = some (.object a) → held ≠ .object b) :
    mergeValue (base.get? key) value = value := by
  refine mergeValue_eq_self fun current fields hcurrent hvalue => ?_
  obtain ⟨_, _, hentries, hreads, -⟩ := h.left
  obtain ⟨hfirst, -⟩ := List.cons.inj hentries
  obtain ⟨-, rfl⟩ := Prod.mk.inj hfirst
  rw [hvalue] at hreads
  obtain ⟨b, rfl⟩ := reads_obj hreads
  rcases h.get? key with ⟨hnone, -⟩ | ⟨v, held', hsome, hget, hv⟩
  · rw [hnone] at hcurrent
    cases hcurrent
  · rw [hsome] at hcurrent
    obtain rfl := Option.some.inj hcurrent
    obtain ⟨a, rfl⟩ := reads_obj hv
    exact hother a b hget rfl

end Ready

/-- The state before the first entry. -/
theorem ready_copy {memory : Memory} {hidden : List Nat} {base override : Nat} {b o : Fields}
    (hbound : ∀ address ∈ hidden, address < memory.length)
    (hb : Reads (memory.outside hidden) (.obj b) (.object base))
    (ho : Reads (memory.outside hidden) (.obj o) (.object override)) :
    ∃ cell entries, memory[base]? = some cell ∧ memory[override]? = some entries ∧
      Ready (memory ++ [cell]) hidden memory.length b o entries := by
  obtain ⟨_, cell, hb, hcell, hbase⟩ := hb
  obtain ⟨_, entries, ho, hentries, hoverride⟩ := ho
  obtain rfl := Held.object.inj hb
  obtain rfl := Held.object.inj ho
  have hcell := (Memory.outside_eq_some.1 hcell).2
  have hentries := (Memory.outside_eq_some.1 hentries).2
  -- whatever is read was there before the copy
  have hkeep : ∀ address c, memory.outside hidden address = some c →
      (memory ++ [cell]).outside (memory.length :: hidden) address = some c := by
    intro address c hlook
    obtain ⟨hout, hlook⟩ := Memory.outside_eq_some.1 hlook
    have hlt : address < memory.length := (List.getElem?_eq_some_iff.1 hlook).1
    refine Memory.outside_eq_some.2 ⟨?_, by rw [List.getElem?_append_left hlt, hlook]⟩
    intro hmem
    rcases List.mem_cons.1 hmem with heq | hmem
    · omega
    · exact hout hmem
  refine ⟨cell, entries, hcell, hentries, ?_, ⟨cell, by simp, hbase.mono hkeep⟩,
    hoverride.mono hkeep⟩
  intro address haddress
  rw [List.length_append, List.length_singleton]
  rcases List.mem_cons.1 haddress with rfl | haddress
  · omega
  · have := hbound address haddress
    omega

/-- A copy that is finished can be read by those who do not look into the copies around it. -/
theorem reads_of_finished {memory : Memory} {hidden : List Nat} {copy : Nat} {cell : Cell}
    {fields : Fields} (hcopy : copy ∉ hidden) (hcell : memory[copy]? = some cell)
    (h : ReadsAll (memory.outside (copy :: hidden)) fields cell) :
    Reads (memory.outside hidden) (.obj fields) (.object copy) := by
  refine ⟨copy, cell, rfl, Memory.outside_eq_some.2 ⟨hcopy, hcell⟩, h.mono ?_⟩
  intro address c hlook
  obtain ⟨hout, hlook⟩ := Memory.outside_eq_some.1 hlook
  exact Memory.outside_eq_some.2 ⟨fun hmem => hout (List.mem_cons_of_mem _ hmem), hlook⟩

mutual
/-- What is read from the result of merging is the merged value. -/
theorem Merges.reads : ∀ {memory memory' : Memory} {base override result : Nat},
    Merges memory base override memory' result → ∀ ⦃hidden : List Nat⦄ ⦃b o : Fields⦄,
      (∀ address ∈ hidden, address < memory.length) →
      Reads (memory.outside hidden) (.obj b) (.object base) →
      Reads (memory.outside hidden) (.obj o) (.object override) →
      Reads (memory'.outside hidden) (.obj (merge b o)) (.object result)
  | memory, _, _, _, _, .copy hbase hoverride hputs => by
    intro hidden b o hbound hb ho
    obtain ⟨_, _, hcell, hentries, hready⟩ := ready_copy hbound hb ho
    obtain rfl := Option.some.inj (hbase.symm.trans hcell)
    obtain rfl := Option.some.inj (hoverride.symm.trans hentries)
    obtain ⟨cell, hcell, hreads⟩ := hputs.reads hready
    have hfresh : memory.length ∉ hidden := fun hmem => Nat.lt_irrefl _ (hbound _ hmem)
    exact reads_of_finished hfresh hcell hreads

/-- What is read from an object after putting entries is the merged fields. -/
theorem Puts.reads : ∀ {memory memory' : Memory} {copy : Nat} {entries : Cell},
    Puts memory copy entries memory' → ∀ ⦃hidden : List Nat⦄ ⦃b o : Fields⦄,
      Ready memory hidden copy b o entries →
      ∃ cell, memory'[copy]? = some cell ∧
        ReadsAll (memory'.outside (copy :: hidden)) (merge b o) cell
  | _, _, _, _, .done => by
    intro hidden b o hready
    match o, hready.left with
    | [], _ => exact hready.copied
  | _, _, _, (key, _) :: _, .merged hcurrent hmerges hrest => by
    intro hidden b o hready
    obtain ⟨value, more, rfl, hvalue⟩ := hready.cons
    obtain ⟨fields, -, rfl, -⟩ := reads_object hvalue
    rcases hready.get? key with ⟨-, hnone⟩ | ⟨current, held, hsome, hget, hheld⟩
    · rw [hnone] at hcurrent
      cases hcurrent
    · obtain rfl := Option.some.inj (hget.symm.trans hcurrent)
      obtain ⟨currentFields, -, rfl, -⟩ := reads_object hheld
      obtain ⟨-, hgrows, hsame⟩ := hmerges.frame
      have hmerged := hmerges.reads hready.bound hheld hvalue
      have hmergeValue : mergeValue (b.get? key) (.obj fields) =
          .obj (merge currentFields fields) := by
        rw [hsome]
        rfl
      rw [merge, hmergeValue]
      exact hrest.reads (hready.put hgrows hsame hmerged)
  | _, _, _, _, .replaced hother hrest => by
    intro hidden b o hready
    obtain ⟨value, more, rfl, hvalue⟩ := hready.cons
    rw [merge, hready.mergeValue_replaced hother]
    exact hrest.reads (hready.put (Nat.le_refl _) (fun _ _ => rfl) hvalue)
end

/-! ### Runs -/

mutual
/-- Objects that can be read can be merged. -/
theorem exists_merges : ∀ (o : Json) ⦃memory : Memory⦄ ⦃hidden : List Nat⦄ ⦃base override : Nat⦄
    ⦃b : Fields⦄, (∀ address ∈ hidden, address < memory.length) →
      Reads (memory.outside hidden) (.obj b) (.object base) →
      Reads (memory.outside hidden) o (.object override) →
      ∃ memory' result, Merges memory base override memory' result
  | .obj fields => by
    intro memory hidden base override b hbound hb ho
    obtain ⟨cell, entries, hcell, hentries, hready⟩ := ready_copy hbound hb ho
    obtain ⟨memory', hputs⟩ := exists_puts fields hready
    exact ⟨memory', _, .copy hcell hentries hputs⟩
  | .null | .bool _ | .num _ | .str _ | .arr _ => by
    intro memory hidden base override b hbound hb ho
    obtain ⟨_, _, hobject, -⟩ := reads_object ho
    cases hobject

/-- Entries that can be read can be put. -/
theorem exists_puts : ∀ (o : List (Text × Json)) {memory : Memory} {hidden : List Nat} {copy : Nat}
    {b : Fields} {entries : Cell}, Ready memory hidden copy b o entries →
      ∃ memory', Puts memory copy entries memory'
  | [], memory, hidden, copy, b, entries, hready => by
    obtain rfl : entries = [] := hready.left
    exact ⟨memory, .done⟩
  | (key, value) :: more, memory, hidden, copy, b, entries, hready => by
    obtain ⟨held, rest, rfl, hvalue, -⟩ := hready.left
    by_cases hboth : ∃ a b, memory.get? copy key = some (.object a) ∧ held = .object b
    · obtain ⟨address, address', hget, rfl⟩ := hboth
      rcases hready.get? key with ⟨-, hnone⟩ | ⟨current, held', -, hget', hheld⟩
      · rw [hnone] at hget
        cases hget
      · obtain rfl := Option.some.inj (hget'.symm.trans hget)
        obtain ⟨fields, -, rfl, -⟩ := reads_object hheld
        obtain ⟨override, -, rfl, -⟩ := reads_object hvalue
        obtain ⟨memory₁, result, hmerges⟩ := exists_merges (.obj override) hready.bound hheld hvalue
        obtain ⟨-, hgrows, hsame⟩ := hmerges.frame
        have hmerged := hmerges.reads hready.bound hheld hvalue
        obtain ⟨memory', hrest⟩ := exists_puts more (hready.put hgrows hsame hmerged)
        exact ⟨memory', .merged hget hmerges hrest⟩
    · have hother : ∀ a b, memory.get? copy key = some (.object a) → held ≠ .object b :=
        fun a b hget heq => hboth ⟨a, b, hget, heq⟩
      obtain ⟨memory', hrest⟩ :=
        exists_puts more (hready.put (Nat.le_refl _) (fun _ _ => rfl) hvalue)
      exact ⟨memory', .replaced hother hrest⟩
end

end DocAnnotator.Json
