import PgCuvs.Serve

/-! How the daemon comes up over a directory, and the warmup worker. -/

namespace PgCuvs

section Names

/-- The characters that `sscanf` skips: space, tab, newline, vertical tab, form feed and
carriage return. -/
def isSpace (c : Char) : Bool := c == ' ' || (9 ≤ c.toNat && c.toNat ≤ 13)

/-- A `%u` conversion: blanks, a sign and leading zeros are accepted, the value is
what `strtoul` has in a 32-bit variable. -/
def scanUnsigned (s : List Char) : Option (ℕ × List Char) :=
  let s := s.dropWhile isSpace
  let negative := s.head? = some '-'
  let s := if negative ∨ s.head? = some '+' then s.tail else s
  let digits := s.takeWhile Char.isDigit
  if digits = [] then none
  else
    let n := digits.foldl (fun n c => n * 10 + (c.toNat - 48)) 0
    let value := if sizeMax < n then sizeMax else if negative then (2 ^ 64 - n) % 2 ^ 64 else n
    some (value % 2 ^ 32, s.dropWhile Char.isDigit)

def scanLiteral (text s : List Char) : Option (List Char) :=
  if text.isPrefixOf s then some (s.drop text.length) else none

def scanKey (name : String) : Option (Key × List Char) := do
  let (db, rest) ← scanUnsigned name.toList
  let rest ← scanLiteral ['_'] rest
  let (idx, rest) ← scanUnsigned rest
  some (⟨db, idx⟩, rest)

/-- The whole name has to match `%u_%u.cagra`. -/
def cuvsParseIndexFilename (name : String) : Option Key :=
  match scanKey name with
  | some (key, rest) => if scanLiteral ".cagra".toList rest = some [] then some key else none
  | none => none

/-- `%u_%u.%15s`, with the tail equal to `tail`. -/
def parseSidecarName (tail name : String) : Option Key :=
  match scanKey name with
  | some (key, rest) =>
    match scanLiteral ['.'] rest with
    | some rest =>
      let word := (rest.dropWhile isSpace).takeWhile fun c => !isSpace c
      if word.take 15 = tail.toList then some key else none
    | none => none
  | none => none

example : cuvsParseIndexFilename "16384_16390.cagra" = some ⟨16384, 16390⟩ := by decide +kernel

example : cuvsParseIndexFilename "\x0b1_\x0c2.cagra" = some ⟨1, 2⟩ := by decide +kernel

end Names

section Startup

variable (cfg : Config) (env : Env)

/-- The first pass loads every `.cagra` it can parse. -/
def loadCagraFiles (d : Daemon) (names : List String) : Daemon :=
  (names.filterMap cuvsParseIndexFilename).foldl (fun d key => (loadIndex cfg env d key).1) d

/-- The passes over `.shards` and `.vectors` skip what is there. -/
def loadSidecarFiles (tail : String) (d : Daemon) (names : List String) : Daemon :=
  (names.filterMap (parseSidecarName tail)).foldl
    (fun d key => if findIndex d.live key = none then (loadIndex cfg env d key).1 else d) d

/-- The pass over `.relfilenode`: the conversion counts before the extension does. -/
def registerCold (d : Daemon) (names : List String) : Daemon :=
  if cfg.snapshotUri = "" then d
  else
    (names.filterMap fun name => (scanKey name).map Prod.fst).foldl
      (fun d key =>
        if (findIndex d.live key).isSome then d
        else
          let (relfilenode, tableOid) := ((d.disk cfg.indexDir key).relfilenode).getD (0, 0)
          let c : ColdIndexEntry :=
            { key, relfilenode, tableOid, warmupState := .queued, lastWarmupAt := 0
              warmupDurationMs := 0, downloadCount := 0, cacheMissCount := 0 }
          { d with
            cold := if d.cold.length < cfg.maxIndexes then d.cold ++ [c] else d.cold
            warmupQueue := warmupEnqueue d.warmupQueue
              { key, relfilenode, tableOid, fromCacheMiss := false } })
      d

def startupLoadIndexes (d : Daemon) (names : List String) : Daemon :=
  let d := loadCagraFiles cfg env d names
  let d := loadSidecarFiles cfg env "shards" d names
  let d := loadSidecarFiles cfg env "vectors" d names
  registerCold cfg d names

end Startup

section Warmup

def setColdState (d : Daemon) (key : Key) (state : WarmupState) : Daemon :=
  match d.cold.findIdx? fun c => c.key == key with
  | some ci => { d with cold := d.cold.modify ci fun c => { c with warmupState := state } }
  | none => d

def coldEntry (d : Daemon) (key : Key) : Option ColdIndexEntry := d.cold.find? fun c => c.key == key

/-- What the worker records on the entry it loaded. -/
def noteHydrated (now durationMs : ℕ) (c : Option ColdIndexEntry) (e : IndexEntry) : IndexEntry :=
  { e with
    warmupState := .hot
    stats :=
      { e.stats with
        lastWarmupAt := now, warmupDurationMs := durationMs
        downloadCount := (c.map ColdIndexEntry.downloadCount).getD 0 + 1
        cacheMissCount := (c.map ColdIndexEntry.cacheMissCount).getD 0 } }

/-- The worker with the lock, after the download. It does not ask whether the index
has become resident meanwhile. -/
def hydrate (cfg : Config) (env : Env) (d : Daemon) (key : Key) (durationMs : ℕ) : Daemon :=
  let d := setColdState d key .loading
  match loadIndex cfg env d key with
  | (d, .loaded) =>
    let d' := { d with cold := d.cold.eraseP fun c => c.key == key }
    match findIndex d.live key with
    | some i =>
      match d.live[i]? with
      | some e => d'.setEntry i (noteHydrated env.now durationMs (coldEntry d key) e)
      | none => d'
    | none => d'
  | (d, _) => setColdState d key .failed

end Warmup

section Resident

variable {cfg : Config} {env : Env} {d : Daemon} {P : Resident → Prop}

theorem registerCold_resident (names : List String) :
    (registerCold cfg d names).resident = d.resident := by
  unfold registerCold
  split_ifs
  · rfl
  · generalize names.filterMap (fun name => (scanKey name).map Prod.fst) = keys
    induction keys generalizing d with
    | nil => rfl
    | cons key keys ih =>
      rw [List.foldl_cons]
      by_cases hfound : (findIndex d.live key).isSome
      · rw [if_pos hfound]
        exact ih
      · rw [if_neg hfound]
        exact ih

theorem setColdState_resident (key : Key) (state : WarmupState) :
    (setColdState d key state).resident = d.resident := by
  unfold setColdState
  split <;> rfl

theorem registerCold_registry (names : List String) :
    (registerCold cfg d names).registry = d.registry :=
  congrArg Prod.fst (registerCold_resident names)

theorem setColdState_registry (key : Key) (state : WarmupState) :
    (setColdState d key state).registry = d.registry :=
  congrArg Prod.fst (setColdState_resident key state)

/-- What every load keeps, a start keeps. -/
theorem startupLoadIndexes_induct (names : List String)
    (hload : ∀ d key, P (Daemon.resident d) → P (loadIndex cfg env d key).1.resident)
    (h : P d.resident) : P (startupLoadIndexes cfg env d names).resident := by
  have hcagra : ∀ (keys : List Key) (d : Daemon), P d.resident →
      P (keys.foldl (fun d key => (loadIndex cfg env d key).1) d).resident := by
    intro keys
    induction keys with
    | nil => exact fun _ h => h
    | cons key keys ih => exact fun d h => ih _ (hload d key h)
  have hsidecar : ∀ (keys : List Key) (d : Daemon), P d.resident →
      P (keys.foldl (fun d key => if findIndex d.live key = none then (loadIndex cfg env d key).1
        else d) d).resident := by
    intro keys
    induction keys with
    | nil => exact fun _ h => h
    | cons key keys ih =>
      intro d h
      rw [List.foldl_cons]
      split_ifs
      · exact ih _ (hload d key h)
      · exact ih _ h
  rw [startupLoadIndexes, registerCold_resident]
  exact hsidecar _ _ (hsidecar _ _ (hcagra _ _ h))

theorem hydrate_induct (key : Key) (durationMs : ℕ)
    (hload : ∀ d key, P (Daemon.resident d) → P (loadIndex cfg env d key).1.resident)
    (hnote : ∀ (reg : Registry) disk i e c, P (reg, disk) → reg.live[i]? = some e →
      P (reg.set i (noteHydrated env.now durationMs c e), disk))
    (h : P d.resident) : P (hydrate cfg env d key durationMs).resident := by
  have hloaded := hload (setColdState d key .loading) key (by rwa [setColdState_resident])
  simp only [hydrate]
  split
  · rename_i heq
    rw [heq] at hloaded
    split
    · split
      · rename_i hslot
        exact hnote _ _ _ _ _ hloaded hslot
      · exact hloaded
    · exact hloaded
  · rename_i heq
    rw [heq] at hloaded
    rwa [setColdState_resident]

end Resident

inductive LifeEvent (D : Type) where
  | serve (r : Request D)
  /-- a start over the files of the directory, listed as `names` -/
  | startup (env : Env) (names : List String)
  /-- a download puts the files of an index in place -/
  | download (key : Key) (files : Artifacts)
  | hydrate (env : Env) (key : Key) (durationMs : ℕ)
  /-- the worker unlinks the sidecars of an earlier generation -/
  | hydrated (key : Key)

variable {D : Type} [LT D] [DecidableLT D]

def Server.lifeStep (cfg : Config) (s : Server) : LifeEvent D → Server
  | .serve r => s.step cfg r
  | .startup env names =>
    { s with
      daemon := startupLoadIndexes cfg env
        (Daemon.initial s.daemon.maxVramPerGpu s.daemon.disk) names
      builds := [], flats := [], compacts := [] }
  | .download key files =>
    { s with
      daemon :=
        { setColdState s.daemon key .downloading with
          disk := s.daemon.disk.modify cfg.indexDir key fun _ => files } }
  | .hydrate env key durationMs => { s with daemon := hydrate cfg env s.daemon key durationMs }
  -- the pending rows, deletes and the mark belong to the files that were replaced
  | .hydrated key =>
    { s with
      daemon :=
        { s.daemon with
          disk := s.daemon.disk.modify cfg.indexDir key fun a =>
            { a with delta := none, tombstone := none, stale := none } } }

end PgCuvs
