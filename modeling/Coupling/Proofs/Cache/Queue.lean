import Coupling.Proofs.Cache.Damage

/-!
# The queue of keys

Memory and the queue of its keys are changed in several places. At all times they hold the same
keys, at most as many as the cache has room for, and keys leave memory in the order in which they
came. A result that was just kept or found is in memory. Hits and misses together are the look-ups.
-/

namespace Coupling

open Cache

/-! ### Memory and order -/

namespace ResultCache

/-- The queue holds each key of memory once and has room for another one or is full. -/
structure Queued (c : ResultCache) : Prop where
  capacity_pos : 0 < c.capacity
  nodup : c.order.Nodup
  mem_order_iff : ∀ {key : String}, key ∈ c.order ↔ key ∈ c.memory
  length_le : c.order.length ≤ c.capacity

/-- From one cache to the next, at most one key joins the queue and memory, and at most the oldest
one leaves both. -/
def Shifts (c c' : ResultCache) : Prop :=
  ∃ (joins leaves : Option String) (kept : List String),
    c.order = leaves.toList ++ kept ∧ c'.order = kept ++ joins.toList ∧
    (∀ key, joins = some key ↔ key ∈ c'.memory ∧ key ∉ c.memory) ∧
    (∀ key, leaves = some key ↔ key ∈ c.memory ∧ key ∉ c'.memory)

variable {c c' : ResultCache} {key : String} {findings : List Finding}

theorem queued_empty (directory : Path) {capacity : Nat} (h : 0 < capacity) :
    Queued ⟨directory, capacity, ∅, [], 0, 0⟩ :=
  ⟨h, List.nodup_nil, by simp, Nat.zero_le capacity⟩

/-- Memory has as many results as the queue has keys. -/
theorem Queued.entries_eq (h : c.Queued) : c.entries = c.order.length := by
  have hperm : c.memory.keys.Perm c.order :=
    (List.perm_ext_iff_of_nodup Std.TreeMap.nodup_keys h.nodup).mpr fun key => by
      rw [Std.TreeMap.mem_keys, h.mem_order_iff]
  rw [entries, ← Std.TreeMap.length_keys, hperm.length_eq]

theorem Shifts.of_mem_iff (horder : c'.order = c.order)
    (hmemory : ∀ key, key ∈ c'.memory ↔ key ∈ c.memory) : c.Shifts c' :=
  ⟨none, none, c.order, by simp, by simp [horder], by simp [hmemory], by simp [hmemory]⟩

theorem mem_memory_insert (findings : List Finding) {key' : String} :
    key' ∈ c.memory.insert key findings ↔ key' = key ∨ key' ∈ c.memory := by
  rw [Std.TreeMap.mem_insert, Std.LawfulEqCmp.compare_eq_iff_eq, eq_comm]

/-- Remembering a known key. -/
theorem Queued.remember_of_mem (h : c.Queued) (hkey : key ∈ c.memory) (findings : List Finding) :
    (c.remember key findings).Queued ∧ c.Shifts (c.remember key findings) ∧
      (c.remember key findings).memory[key]? = some findings := by
  have hremember : c.remember key findings =
      { c with memory := c.memory.insert key findings } := by
    simp only [remember, Std.TreeMap.contains_iff_mem, hkey, if_true]
  have hmem : ∀ key', key' ∈ c.memory.insert key findings ↔ key' ∈ c.memory := by
    intro key'
    rw [mem_memory_insert, or_iff_right_of_imp]
    rintro rfl
    exact hkey
  rw [hremember]
  refine ⟨{ h with mem_order_iff := ?_ }, .of_mem_iff rfl hmem, by simp⟩
  exact h.mem_order_iff.trans (hmem _).symm

/-- Remembering a new key: it goes to the end, and the oldest key leaves a full queue. -/
theorem Queued.remember_of_notMem (h : c.Queued) (hkey : key ∉ c.memory)
    (findings : List Finding) :
    ∃ (leaves : Option String) (kept : List String), c.order = leaves.toList ++ kept ∧
      kept.length < c.capacity ∧ c.remember key findings = { c with
        memory := leaves.toList.foldl (·.erase ·) (c.memory.insert key findings)
        order := kept ++ [key] } := by
  have hremember : c.remember key findings = { c with
      memory := ((c.order ++ [key]).take ((c.order ++ [key]).length - c.capacity)).foldl
        (·.erase ·) (c.memory.insert key findings)
      order := (c.order ++ [key]).drop ((c.order ++ [key]).length - c.capacity) } := by
    simp only [remember, Std.TreeMap.contains_iff_mem, hkey, if_false]
  rw [hremember]
  have hpos := h.capacity_pos
  -- The queue was not over its capacity before, so one key more is at most one too many.
  rcases h.length_le.lt_or_eq with hroom | hfull
  · have hexcess : (c.order ++ [key]).length - c.capacity = 0 := by
      rw [List.length_append, List.length_singleton]
      omega
    exact ⟨none, c.order, rfl, hroom, by rw [hexcess]; rfl⟩
  · have hexcess : (c.order ++ [key]).length - c.capacity = 1 := by
      rw [List.length_append, List.length_singleton]
      omega
    cases horder : c.order with
    | nil => simp [horder] at hfull; omega
    | cons oldest kept =>
      refine ⟨some oldest, kept, rfl, ?_, ?_⟩
      · rw [← hfull, horder, List.length_cons]
        exact Nat.lt_succ_self _
      · rw [horder] at hexcess
        rw [hexcess]
        rfl

/-- A key that is new goes to the end, and all but the oldest one may stay before it. -/
theorem Queued.shift (h : c.Queued) {leaves : Option String} {kept : List String}
    (horder : c.order = leaves.toList ++ kept) (hlength : kept.length < c.capacity)
    (hkey : key ∉ c.memory) (hcapacity : c'.capacity = c.capacity)
    (horder' : c'.order = kept ++ [key])
    (hmem : ∀ key', key' ∈ c'.memory ↔ key' ∉ leaves.toList ∧ (key' = key ∨ key' ∈ c.memory)) :
    c'.Queued ∧ c.Shifts c' := by
  have hold : ∀ key', key' ∈ c.memory ↔ leaves = some key' ∨ key' ∈ kept := by
    intro key'
    rw [← h.mem_order_iff, horder, List.mem_append, Option.mem_toList]
  obtain ⟨_, hkept, hapart⟩ := List.nodup_append.mp (horder ▸ h.nodup)
  have hnew := not_or.mp fun hmem => hkey ((hold key).mpr hmem)
  have hmem' : ∀ key', key' ∈ c'.memory ↔ key' = key ∨ key' ∈ kept := by
    intro key'
    have hleaves := hapart key'
    rw [Option.mem_toList] at hleaves
    rw [hmem, hold, Option.mem_toList]
    grind
  refine ⟨⟨?_, ?_, ?_, ?_⟩, ⟨some key, leaves, kept, horder, horder', ?_, ?_⟩⟩
  · exact hcapacity ▸ h.capacity_pos
  · rw [horder']
    exact List.Nodup.append hkept (List.nodup_singleton key) (by simpa using hnew.2)
  · simp [horder', hmem', or_comm]
  · rw [horder', hcapacity, List.length_append]
    exact hlength
  · intro key'
    rw [hmem', hold]
    grind
  · intro key'
    rw [hmem', hold]
    grind

/-- Remembering keeps memory and queue together, and what is remembered is in memory. -/
theorem Queued.remember (h : c.Queued) (key : String) (findings : List Finding) :
    (c.remember key findings).Queued ∧ c.Shifts (c.remember key findings) ∧
      (c.remember key findings).memory[key]? = some findings := by
  by_cases hkey : key ∈ c.memory
  · exact h.remember_of_mem hkey findings
  obtain ⟨leaves, kept, horder, hlength, hremember⟩ := h.remember_of_notMem hkey findings
  have hlook : ∀ key', (c.remember key findings).memory[key']? =
      if key' ∈ leaves.toList then none else (c.memory.insert key findings)[key']? := by
    intro key'
    rw [hremember, getElem?_foldl_erase]
  have hmem : ∀ key', key' ∈ (c.remember key findings).memory ↔
      key' ∉ leaves.toList ∧ (key' = key ∨ key' ∈ c.memory) := by
    intro key'
    rw [Std.TreeMap.mem_iff_isSome_getElem?, hlook, ← mem_memory_insert findings,
      Std.TreeMap.mem_iff_isSome_getElem?]
    split <;> simp [*]
  obtain ⟨hqueued, hshifts⟩ := h.shift horder hlength hkey (by rw [hremember])
    (by rw [hremember]) hmem
  refine ⟨hqueued, hshifts, ?_⟩
  have hstays : key ∉ leaves.toList := fun hleaves =>
    hkey (h.mem_order_iff.mp (horder ▸ List.mem_append_left kept hleaves))
  rw [hlook, if_neg hstays, Std.TreeMap.getElem?_insert_self]

@[simp] theorem capacity_remember (c : ResultCache) (key : String) (findings : List Finding) :
    (c.remember key findings).capacity = c.capacity := by
  simp only [remember]
  split <;> rfl

/-! ### Steps -/

/-- What look-ups and keeping can do: memory stays as it is, with the result in it if there is one,
or it remembers the result. -/
def Turns (c : ResultCache) (s? : Option FileState) (result? : Option (List Finding))
    (lookups : Nat) (c' : ResultCache) : Prop :=
  ∃ hits misses, hits + misses = c.hits + c.misses + lookups ∧
    (result? = none ∧ c' = { c with hits := hits, misses := misses } ∨
      ∃ s findings, s? = some s ∧ result? = some findings ∧
        (c.memory[s.key]? = some findings ∧ c' = { c with hits := hits, misses := misses } ∨
          c' = { c.remember s.key findings with hits := hits, misses := misses }))

theorem Turns.refl (c : ResultCache) (s? : Option FileState) : c.Turns s? none 0 c :=
  ⟨c.hits, c.misses, rfl, .inl ⟨rfl, rfl⟩⟩

theorem Turns.miss (c : ResultCache) (d : Disk) (s? : Option FileState) :
    c.Turns s? none 1 (c.miss d).cache :=
  ⟨c.hits, c.misses + 1, by omega, .inl ⟨rfl, rfl⟩⟩

/-- Of a state only the key matters. -/
theorem Turns.of_key {s t : FileState} {result? : Option (List Finding)} {lookups : Nat}
    (h : c.Turns (some s) result? lookups c') (hkey : s.key = t.key) :
    c.Turns (some t) result? lookups c' := by
  obtain ⟨hits, misses, hcount, hnone | ⟨_, findings, ⟨⟩, hresult, hwhere⟩⟩ := h
  · exact ⟨hits, misses, hcount, .inl hnone⟩
  · exact ⟨hits, misses, hcount, .inr ⟨t, findings, rfl, hresult, hkey ▸ hwhere⟩⟩

theorem turns_getBytes (c : ResultCache) (d : Disk) (path : Path) (bytes : Text.Bytes) :
    c.Turns (FileState.ofDisk? d path bytes) (c.getBytes d path bytes).found 1
      (c.getBytes d path bytes).cache := by
  obtain ⟨hfound, hcache⟩ | ⟨s, findings, hs, hfound, _, hwhere⟩ := c.getBytes_cases d path bytes
  · exact ⟨c.hits, c.misses + 1, by omega, .inl ⟨hfound, hcache⟩⟩
  · refine ⟨c.hits + 1, c.misses, by omega, .inr ⟨s, findings, hs, hfound, ?_⟩⟩
    obtain ⟨hmemory, hcache⟩ | ⟨_, _, hcache⟩ := hwhere
    · exact .inl ⟨hmemory, hcache⟩
    · exact .inr (by simp only [hcache, misses_remember])

theorem turns_setBytes (c : ResultCache) (d : Disk) (path : Path) (bytes : Text.Bytes)
    (findings : List Finding) : c.Turns (FileState.ofDisk? d path bytes)
      ((FileState.ofDisk? d path bytes).map fun _ => findings) 0
      (c.setBytes d path bytes findings).1 := by
  unfold setBytes
  cases FileState.ofDisk? d path bytes with
  | none => exact .refl c none
  | some s =>
    refine ⟨c.hits, c.misses, rfl, .inr ⟨s, findings, rfl, rfl, .inr ?_⟩⟩
    simp only [← hits_remember c s.key findings, ← misses_remember c s.key findings]

theorem turns_get (c : ResultCache) (d : Disk) (path : Path) :
    c.Turns ((Stamp.at? d path).map Stamp.state) (c.get d path).found 1 (c.get d path).cache := by
  cases hstamp : Stamp.at? d path with
  | none =>
    rw [get_of_at?_none hstamp]
    exact .miss c d none
  | some s =>
    obtain ⟨document, state, hread, hstate, hkey⟩ := Stamp.read_of_at? hstamp
    have hget : c.get d path = c.getBytes d path document.bytes := by rw [get, hread]
    have hturns := c.turns_getBytes d path document.bytes
    rw [hstate] at hturns
    rw [hget]
    exact hturns.of_key hkey

theorem turns_set (c : ResultCache) (d : Disk) (path : Path) (findings : List Finding) :
    c.Turns ((Stamp.at? d path).map Stamp.state)
      (((Stamp.at? d path).map Stamp.state).map fun _ => findings) 0
      (c.set d path findings).1 := by
  cases hstamp : Stamp.at? d path with
  | none =>
    rw [set_of_at?_none hstamp]
    exact .refl c none
  | some s =>
    obtain ⟨document, state, hread, hstate, hkey⟩ := Stamp.read_of_at? hstamp
    have hset : c.set d path findings = c.setBytes d path document.bytes findings := by
      rw [set, hread]
    have hturns := c.turns_setBytes d path document.bytes findings
    rw [hstate] at hturns
    rw [hset]
    exact hturns.of_key hkey

/-- What a step preserves. -/
theorem Queued.turns {s? : Option FileState} {result? : Option (List Finding)} {lookups : Nat}
    (h : c.Queued) (hturns : c.Turns s? result? lookups c') :
    c'.Queued ∧ c.Shifts c' ∧ c'.capacity = c.capacity ∧
      c'.hits + c'.misses = c.hits + c.misses + lookups ∧
      ∀ findings, result? = some findings →
        ∃ s, s? = some s ∧ c'.memory[s.key]? = some findings := by
  obtain ⟨hits, misses, hcount, ⟨rfl, rfl⟩ | ⟨s, findings, hs, rfl, hwhere⟩⟩ := hturns
  · exact ⟨{ h with }, .of_mem_iff rfl fun _ => .rfl, rfl, hcount, by simp⟩
  · obtain ⟨hmemory, rfl⟩ | rfl := hwhere
    · refine ⟨{ h with }, .of_mem_iff rfl fun _ => .rfl, rfl, hcount, ?_⟩
      rintro _ ⟨⟩
      exact ⟨s, hs, hmemory⟩
    · obtain ⟨hqueued, hshifts, hmemory⟩ := h.remember s.key findings
      refine ⟨{ hqueued with }, hshifts, c.capacity_remember s.key findings, hcount, ?_⟩
      rintro _ ⟨⟩
      exact ⟨s, hs, hmemory⟩

end ResultCache

namespace Cache

/-! ### What is done with a cache -/

/-- An act, or one on content that was read before. -/
inductive Operation where
  | act (a : Act)
  | getBytes (path : Path) (bytes : Text.Bytes)
  | setBytes (path : Path) (bytes : Text.Bytes) (findings : List Finding)

namespace Operation

def perform (c : ResultCache) (d : Disk) : Operation → ResultCache.Answer
  | .act a => Use.perform ⟨c, d, []⟩ a
  | .getBytes path bytes => c.getBytes d path bytes
  | .setBytes path bytes findings =>
    ⟨none, (c.setBytes d path bytes findings).1, (c.setBytes d path bytes findings).2⟩

/-- Forgets everything. -/
def isClear : Operation → Bool
  | .act .clear => true
  | _ => false

/-- Number of look-ups. -/
def lookups : Operation → Nat
  | .act (.get _) => 1
  | .getBytes .. => 1
  | _ => 0

/-- The state of the file that an operation is about. -/
def state? (d : Disk) : Operation → Option FileState
  | .act (.get path) => (Stamp.at? d path).map Stamp.state
  | .act (.set path _) => (Stamp.at? d path).map Stamp.state
  | .act .clear => none
  | .act (.edit _) => none
  | .getBytes path bytes => FileState.ofDisk? d path bytes
  | .setBytes path bytes _ => FileState.ofDisk? d path bytes

/-- What an operation finds or keeps; nothing is kept for a file that is not there. -/
def result? (c : ResultCache) (d : Disk) (op : Operation) : Option (List Finding) :=
  match op with
  | .act (.set _ findings) => (op.state? d).map fun _ => findings
  | .setBytes _ _ findings => (op.state? d).map fun _ => findings
  | op => (op.perform c d).found

theorem eq_clear {op : Operation} (h : op.isClear = true) : op = .act .clear := by
  unfold isClear at h
  split at h
  · rfl
  · simp at h

theorem turns_perform (c : ResultCache) (d : Disk) {op : Operation} (hop : op.isClear = false) :
    c.Turns (op.state? d) (op.result? c d) op.lookups (op.perform c d).cache := by
  cases op with
  | getBytes path bytes => exact c.turns_getBytes d path bytes
  | setBytes path bytes findings => exact c.turns_setBytes d path bytes findings
  | act a =>
    cases a with
    | clear => simp [isClear] at hop
    | edit change => exact .refl c none
    | get path => exact c.turns_get d path
    | set path findings => exact c.turns_set d path findings

end Operation

/-! ### Runs -/

/-- The keys that one cache has in memory and another one has not. -/
def gained (c c' : ResultCache) : List String :=
  c'.memory.keys.filter fun key => !c.memory.contains key

/-- A cache in use and what happened since it was made or cleared: the number of look-ups, and the
keys that came into memory and that left it, the first ones first. -/
structure Ledger where
  cache : ResultCache
  disk : Disk
  lookups : Nat := 0
  came : List String := []
  left : List String := []

namespace Ledger

def next (l : Ledger) (op : Operation) : Ledger :=
  let answer := op.perform l.cache l.disk
  if op.isClear then ⟨answer.cache, answer.disk, 0, [], []⟩
  else ⟨answer.cache, answer.disk, l.lookups + op.lookups,
    l.came ++ gained l.cache answer.cache, l.left ++ gained answer.cache l.cache⟩

def run (l : Ledger) (ops : List Operation) : Ledger := ops.foldl next l

/-- A cache in use from its beginning. -/
def after (c : ResultCache) (d : Disk) (ops : List Operation) : Ledger := run ⟨c, d, 0, [], []⟩ ops

end Ledger

theorem gained_eq_toList {c c' : ResultCache} {joins : Option String}
    (h : ∀ key, joins = some key ↔ key ∈ c'.memory ∧ key ∉ c.memory) :
    gained c c' = joins.toList := by
  have hmem : ∀ key, key ∈ gained c c' ↔ key ∈ joins.toList := by
    intro key
    simp [gained, h, Std.TreeMap.mem_keys, ← Std.TreeMap.contains_iff_mem]
  have hnodup : (gained c c').Nodup := Std.TreeMap.nodup_keys.filter _
  cases joins with
  | none => simpa [List.eq_nil_iff_forall_not_mem] using hmem
  | some key =>
    have hperm := (List.perm_ext_iff_of_nodup hnodup (List.nodup_singleton key)).mpr hmem
    exact List.perm_singleton.mp hperm

/-- Memory and queue agree, keys leave in the order in which they came, and look-ups are counted. -/
structure Ledger.Balanced (capacity : Nat) (l : Ledger) : Prop where
  queued : l.cache.Queued
  capacity_eq : l.cache.capacity = capacity
  came_eq : l.came = l.left ++ l.cache.order
  counted : l.cache.hits + l.cache.misses = l.lookups

namespace Ledger.Balanced

variable {capacity : Nat} {l : Ledger}

theorem of_empty (directory : Path) (d : Disk) (h : 0 < capacity) :
    Balanced capacity ⟨⟨directory, capacity, ∅, [], 0, 0⟩, d, 0, [], []⟩ :=
  ⟨ResultCache.queued_empty directory h, rfl, rfl, rfl⟩

theorem next (h : l.Balanced capacity) (op : Operation) : (l.next op).Balanced capacity := by
  by_cases hop : op.isClear = true
  · obtain rfl := Operation.eq_clear hop
    have hpos : 0 < capacity := h.capacity_eq ▸ h.queued.capacity_pos
    obtain rfl := h.capacity_eq
    exact of_empty l.cache.directory _ hpos
  · obtain ⟨hqueued, hshifts, hcapacity, hcount, _⟩ :=
      h.queued.turns (Operation.turns_perform l.cache l.disk (Bool.eq_false_of_not_eq_true hop))
    obtain ⟨joins, leaves, kept, horder, horder', hjoins, hleaves⟩ := hshifts
    rw [Ledger.next, if_neg hop]
    refine ⟨hqueued, hcapacity.trans h.capacity_eq, ?_, hcount.trans (by rw [h.counted])⟩
    -- The keys that come and leave are read off memory, and `Shifts` finds them in the queue.
    simp only [gained_eq_toList hjoins, gained_eq_toList hleaves, h.came_eq, horder, horder',
      List.append_assoc]

theorem run (h : l.Balanced capacity) (ops : List Operation) : (l.run ops).Balanced capacity := by
  induction ops generalizing l with
  | nil => exact h
  | cons op ops ih => exact ih (h.next op)

end Ledger.Balanced

/-- Whatever is done with a new cache, its queue holds the keys of memory once each and not more
than there is room for, keys leave memory in the order in which they came, look-ups are counted, and
what was just found or kept is in memory. -/
theorem queue_holds_memory {d d₀ : Disk} {directory : Path} {capacity : Nat} {c : ResultCache}
    (hcreate : ResultCache.create d directory capacity = .ok (c, d₀)) (ops : List Operation) :
    (Ledger.after c d₀ ops).cache.order.Nodup ∧
    (∀ key, key ∈ (Ledger.after c d₀ ops).cache.order ↔
      key ∈ (Ledger.after c d₀ ops).cache.memory) ∧
    (Ledger.after c d₀ ops).cache.entries = (Ledger.after c d₀ ops).cache.order.length ∧
    (Ledger.after c d₀ ops).cache.order.length ≤ max capacity 1 ∧
    (Ledger.after c d₀ ops).came =
      (Ledger.after c d₀ ops).left ++ (Ledger.after c d₀ ops).cache.order ∧
    (Ledger.after c d₀ ops).cache.hits + (Ledger.after c d₀ ops).cache.misses =
      (Ledger.after c d₀ ops).lookups ∧
    ∀ op findings, op.result? (Ledger.after c d₀ ops).cache (Ledger.after c d₀ ops).disk =
        some findings →
      ∃ s, op.state? (Ledger.after c d₀ ops).disk = some s ∧
        ((Ledger.after c d₀ ops).next op).cache.memory[s.key]? = some findings := by
  obtain rfl := ResultCache.eq_of_create hcreate
  have hstart : 0 < max capacity 1 := by omega
  have hrun := (Ledger.Balanced.of_empty directory d₀ hstart).run ops
  have hqueued := hrun.queued
  refine ⟨hqueued.nodup, fun _ => hqueued.mem_order_iff, hqueued.entries_eq,
    hqueued.length_le.trans_eq hrun.capacity_eq, hrun.came_eq, hrun.counted, ?_⟩
  intro op findings hresult
  by_cases hop : op.isClear = true
  · obtain rfl := Operation.eq_clear hop
    exact absurd hresult (by simp [Operation.result?, Operation.perform, Use.perform])
  · rw [Ledger.next, if_neg hop]
    obtain ⟨_, _, _, _, hretains⟩ :=
      hqueued.turns (Operation.turns_perform _ _ (Bool.eq_false_of_not_eq_true hop))
    exact hretains findings hresult

namespace Crowded

/-- A look-up in vain and results for two contents, in a cache with room for one. -/
def ops : List Operation :=
  [.act (.get "a.py"), .act (.set "old.py" []), .setBytes "old.py" [1] []]

def ledger : Ledger := Ledger.after Touched.cache (Touched.disk 0) ops

theorem queue_holds_memory_crowded :
    ledger.left.length = 1 ∧ ledger.came = ledger.left ++ ledger.cache.order ∧
    ledger.cache.order.length ≤ max 0 1 ∧ ledger.cache.hits + ledger.cache.misses = 1 := by
  obtain ⟨_, _, _, hlength, hcame, hcount, _⟩ := queue_holds_memory (Touched.create_eq 0) ops
  have hlookups : (Ledger.after Touched.cache (Touched.disk 0) ops).lookups = 1 := by
    simp [Ledger.after, Ledger.run, ops, Ledger.next, Operation.isClear, Operation.lookups]
  rw [ledger]
  exact ⟨by decide +kernel, hcame, hlength, hcount.trans hlookups⟩

end Crowded

end Cache

end Coupling
