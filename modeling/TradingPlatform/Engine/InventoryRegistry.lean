import TradingPlatform.Engine.PortfolioCoordinator
import TradingPlatform.Lib.Runs

/-! # The inventory registry over many cycles

The registry remembers since when a position has been held. What it should
remember is the broker's current block: the side, and the date of the first
cycle since which the symbol has been held on it without a break. -/

namespace TradingPlatform.Engine.Portfolio

open TradingPlatform.Lib TradingPlatform.Lib.Runs

/-! ## Blocks -/

/-- A symbol held on one side, and the date of the first cycle that saw it so. -/
structure DirectionalBlock where
  side : PositionSide
  since : String
  deriving DecidableEq

/-- A position on the block's side continues it; any other begins a new one. -/
def nextBlock (today : String) (block : Option DirectionalBlock) (pos : Position) :
    DirectionalBlock :=
  match block with
  | none => ⟨pos.side, today⟩
  | some block => if block.side = pos.side then block else ⟨pos.side, today⟩

/-- What one cycle sees: its date, and at most one position a symbol. -/
structure InventoryCycle (upper : String → String) where
  today : String
  positions : List Position
  oneEach : (positions.map fun pos => upper pos.symbol).Nodup

def InventoryCycle.position? {upper : String → String} (cycle : InventoryCycle upper)
    (symbol : String) : Option Position :=
  cycle.positions.find? fun pos => upper pos.symbol = symbol

section Cycles
variable (env : CycleEnv) (configs : List StrategyConfig)

/-- The registry, and the broker's blocks. -/
structure Inventory where
  registry : Dict (String × String) InventoryRow := .empty
  blocks : String → Option DirectionalBlock := fun _ => none

def onDate (today : String) : CycleEnv := { env with today }

def syncCycle (s : Inventory) (cycle : InventoryCycle env.upper) : Inventory where
  registry := PortfolioCoordinator.syncInventoryRegistry (onDate env cycle.today)
    ({ inventory := s.registry } : PortfolioCoordinator Unit) configs cycle.positions
  blocks symbol := (cycle.position? symbol).map (nextBlock cycle.today (s.blocks symbol))

/-- Registry and manifest have the side, the exposure and the date of the block
that a held position is part of. -/
def ReportsBlocks (s : Inventory) (cycle : InventoryCycle env.upper) : Prop :=
  ∀ cfg ∈ configs, ∀ pos, cycle.position? (env.upper cfg.symbol) = some pos →
    ∃ block, s.blocks (env.upper cfg.symbol) = some block ∧
      (∃ row, s.registry.get? (cfg.strategyId, env.upper cfg.symbol) = some row ∧
        row.side = block.side ∧ row.openedSessionDate = block.since ∧
        row.netDirectionalExposure = block.side.sign * positionNotional pos) ∧
      ∃ row ∈ buildActivePositionsManifest (onDate env cycle.today) s.registry configs
          cycle.positions,
        row.strategyId = cfg.strategyId ∧ row.symbol = env.upper cfg.symbol ∧
          row.side = block.side ∧ row.openedSessionDate = block.since ∧
          row.notional = positionNotional pos

/-- Each held position is long just when its quantity is positive, and it has not
changed sides, unless its block began this very day. -/
def SidesReadOff (s : Inventory) (cycle : InventoryCycle env.upper) : Prop :=
  ∀ cfg ∈ configs, ∀ pos, cycle.position? (env.upper cfg.symbol) = some pos →
    heldSide pos = pos.side ∧
      ∀ block, s.blocks (env.upper cfg.symbol) = some block →
        block.side = pos.side ∨ block.since = cycle.today

end Cycles

/-! ## One sync -/

section Sync
variable {env : CycleEnv} {configs : List StrategyConfig}

theorem InventoryCycle.positionsBySymbol_get? (cycle : InventoryCycle env.upper) (symbol : String) :
    (positionsBySymbol env cycle.positions).get? symbol = cycle.position? symbol := by
  refine Option.ext fun pos => ?_
  rw [positionsBySymbol, Dict.get?_keyBy_of_nodup _ cycle.oneEach, InventoryCycle.position?]
  constructor
  · intro h
    obtain ⟨hpos, hsymbol⟩ := h
    cases hfind : cycle.positions.find? fun pos => env.upper pos.symbol = symbol with
    | none => exact absurd hsymbol (by simpa using List.find?_eq_none.mp hfind pos hpos)
    | some pos' =>
      have hsymbol' : env.upper pos'.symbol = symbol := by simpa using List.find?_some hfind
      exact congrArg some (List.inj_on_of_nodup_map cycle.oneEach (List.mem_of_find?_eq_some hfind)
        hpos (hsymbol'.trans hsymbol.symm))
  · intro hfind
    exact ⟨List.mem_of_find?_eq_some hfind, by simpa using List.find?_some hfind⟩

def heldRow (env : CycleEnv) (row : Option InventoryRow) (pos : Position) : InventoryRow where
  side := heldSide pos
  openedSessionDate := (row.map (·.openedSessionDate)).getD env.today
  lastSeenAt := env.today
  netDirectionalExposure := (heldSide pos).sign * positionNotional pos

/-- The upsert of one position. -/
def recordHeld (env : CycleEnv) (strategyBySymbol : Dict String StrategyConfig)
    (registry : Dict (String × String) InventoryRow) (p : String × Position) :
    Dict (String × String) InventoryRow :=
  match strategyBySymbol.get? p.1 with
  | none => registry
  | some cfg =>
    registry.set (cfg.strategyId, p.1) (heldRow env (registry.get? (cfg.strategyId, p.1)) p.2)

theorem recordHeld_ne {strategyBySymbol : Dict String StrategyConfig}
    {registry : Dict (String × String) InventoryRow} {p : String × Position} {sid symbol : String}
    (h : p.1 ≠ symbol) :
    (recordHeld env strategyBySymbol registry p).get? (sid, symbol) = registry.get? (sid, symbol) := by
  unfold recordHeld
  split
  · rfl
  · rw [Dict.get?_set_ne]
    intro heq
    exact h (congrArg Prod.snd heq).symm

/-- Of the positions just the one on the symbol touches the row. -/
theorem recordHeld_fold {strategyBySymbol : Dict String StrategyConfig} {cfg : StrategyConfig}
    {symbol : String} (hcfg : strategyBySymbol.get? symbol = some cfg) {items : List (String × Position)}
    (hnodup : (items.map Prod.fst).Nodup) (registry : Dict (String × String) InventoryRow) :
    (items.foldl (recordHeld env strategyBySymbol) registry).get? (cfg.strategyId, symbol) =
      ((items.lookup symbol).map (heldRow env (registry.get? (cfg.strategyId, symbol)))).or
        (registry.get? (cfg.strategyId, symbol)) := by
  induction items generalizing registry with
  | nil => rfl
  | cons p items ih =>
    obtain ⟨held, pos⟩ := p
    rw [List.foldl_cons, ih (List.nodup_cons.mp hnodup).2]
    by_cases hsymbol : held = symbol
    · subst hsymbol
      have hnone : items.lookup held = none := by
        refine List.lookup_eq_none_iff.mpr fun q hq => ?_
        exact bne_iff_ne.mpr (Dict.notMem_of_nodup hnodup hq).symm
      have hset : recordHeld env strategyBySymbol registry (held, pos) =
          registry.set (cfg.strategyId, held)
            (heldRow env (registry.get? (cfg.strategyId, held)) pos) := by
        unfold recordHeld
        rw [hcfg]
      rw [hnone, hset, Dict.get?_set_self, List.lookup_cons_self]
      rfl
    · rw [recordHeld_ne hsymbol, Dict.lookup_cons_ne (Ne.symm hsymbol)]

theorem erase_fold {α κ ν : Type} [DecidableEq κ] (kept : α → Bool) (key : α → κ) (xs : List α)
    (d : Dict κ ν) (k : κ) :
    (xs.foldl (fun d x => if kept x then d else d.erase (key x)) d).get? k =
      if ∃ x ∈ xs, kept x = false ∧ key x = k then none else d.get? k := by
  induction xs generalizing d with
  | nil => simp
  | cons x xs ih =>
    rw [List.foldl_cons, ih]
    cases hx : kept x with
    | true => simp [hx]
    | false =>
      rw [if_neg Bool.false_ne_true, Dict.get?_erase]
      by_cases hk : k = key x
      · simp [hk, hx]
      · simp [hk, Ne.symm hk]

/-- **What a sync leaves for a config**: a row for a held position, of the old
row's date if there was one, and none otherwise. -/
theorem syncInventoryRegistry_get? (hconfigs : (configs.map fun cfg => env.upper cfg.symbol).Nodup)
    (c : PortfolioCoordinator Unit) (positions : List Position) {cfg : StrategyConfig}
    (hcfg : cfg ∈ configs) :
    (c.syncInventoryRegistry env configs positions).get? (cfg.strategyId, env.upper cfg.symbol) =
      ((positionsBySymbol env positions).get? (env.upper cfg.symbol)).map
        (heldRow env (c.inventory.get? (cfg.strategyId, env.upper cfg.symbol))) := by
  have hsync : c.syncInventoryRegistry env configs positions =
      configs.foldl (fun registry cfg =>
          if ((positionsBySymbol env positions).get? (env.upper cfg.symbol)).isSome then registry
          else registry.erase (cfg.strategyId, env.upper cfg.symbol))
        ((positionsBySymbol env positions).items.foldl
          (recordHeld env (Dict.keyBy (fun cfg : StrategyConfig => env.upper cfg.symbol) configs))
          c.inventory) := rfl
  have hkey : (Dict.keyBy (fun cfg : StrategyConfig => env.upper cfg.symbol) configs).get?
      (env.upper cfg.symbol) = some cfg :=
    (Dict.get?_keyBy_of_nodup _ hconfigs).mpr ⟨hcfg, rfl⟩
  rw [hsync, erase_fold, recordHeld_fold hkey (positionsBySymbol env positions).nodup]
  cases hheld : (positionsBySymbol env positions).get? (env.upper cfg.symbol) with
  | none =>
    rw [if_pos ⟨cfg, hcfg, by rw [hheld]; rfl, rfl⟩]
    rfl
  | some pos =>
    have hlookup : (positionsBySymbol env positions).items.lookup (env.upper cfg.symbol) =
        some pos := hheld
    rw [if_neg, hlookup]
    · rfl
    intro h
    obtain ⟨cfg', -, hgone, heq⟩ := h
    have hsymbol : env.upper cfg'.symbol = env.upper cfg.symbol := congrArg Prod.snd heq
    rw [hsymbol, hheld] at hgone
    cases hgone

end Sync

/-! ## One cycle -/

section Step
variable {env : CycleEnv} {configs : List StrategyConfig}

/-- The registry's dates are those of the blocks. -/
def DatesBlocks (env : CycleEnv) (configs : List StrategyConfig) (s : Inventory) : Prop :=
  ∀ cfg ∈ configs, (s.registry.get? (cfg.strategyId, env.upper cfg.symbol)).map
    (·.openedSessionDate) = (s.blocks (env.upper cfg.symbol)).map (·.since)

theorem syncCycle_row (hconfigs : (configs.map fun cfg => env.upper cfg.symbol).Nodup)
    (s : Inventory) (cycle : InventoryCycle env.upper) {cfg : StrategyConfig} (hcfg : cfg ∈ configs) :
    (syncCycle env configs s cycle).registry.get? (cfg.strategyId, env.upper cfg.symbol) =
      (cycle.position? (env.upper cfg.symbol)).map (heldRow (onDate env cycle.today)
        (s.registry.get? (cfg.strategyId, env.upper cfg.symbol))) := by
  have honDate : (configs.map fun cfg => (onDate env cycle.today).upper cfg.symbol).Nodup :=
    hconfigs
  rw [← cycle.positionsBySymbol_get?]
  exact syncInventoryRegistry_get? honDate _ _ hcfg

theorem nextBlock_side (today : String) (block : Option DirectionalBlock) (pos : Position) :
    (nextBlock today block pos).side = pos.side := by
  unfold nextBlock
  split
  · rfl
  · split
    · assumption
    · rfl

/-- The old date is the block's just when the block goes on, or began today. -/
theorem nextBlock_since (today : String) (block : Option DirectionalBlock) (pos : Position) :
    (block.map (·.since)).getD today = (nextBlock today block pos).since ↔
      ∀ b, block = some b → b.side = pos.side ∨ b.since = today := by
  unfold nextBlock
  cases block with
  | none => simp
  | some b =>
    simp only [Option.map_some, Option.getD_some, Option.some.injEq, forall_eq']
    split
    · rename_i hside
      simp [hside]
    · rename_i hside
      simp [hside]

theorem manifest_row {s : Inventory} {cycle : InventoryCycle env.upper} {cfg : StrategyConfig}
    (hcfg : cfg ∈ configs) {pos : Position}
    (hpos : cycle.position? (env.upper cfg.symbol) = some pos) {row : InventoryRow}
    (hrow : s.registry.get? (cfg.strategyId, env.upper cfg.symbol) = some row) :
    ∃ m ∈ buildActivePositionsManifest (onDate env cycle.today) s.registry configs cycle.positions,
      m.strategyId = cfg.strategyId ∧ m.symbol = env.upper cfg.symbol ∧ m.side = heldSide pos ∧
        m.openedSessionDate = row.openedSessionDate ∧ m.notional = positionNotional pos := by
  have hheld : (positionsBySymbol (onDate env cycle.today) cycle.positions).get?
      ((onDate env cycle.today).upper cfg.symbol) = some pos :=
    (cycle.positionsBySymbol_get? _).trans hpos
  have hmember : _ ∈ buildActivePositionsManifest (onDate env cycle.today) s.registry configs
      cycle.positions := List.mem_filterMap.mpr
        ⟨cfg, hcfg, Option.map_eq_some_iff.mpr ⟨pos, hheld, rfl⟩⟩
  refine ⟨_, hmember, rfl, rfl, rfl, ?_, rfl⟩
  have hrow' : s.registry.get? (cfg.strategyId, (onDate env cycle.today).upper cfg.symbol) =
    some row := hrow
  rw [hrow']
  rfl

/-- **One cycle** reports the blocks exactly when the sides can be read off. -/
theorem reports_step_iff (hconfigs : (configs.map fun cfg => env.upper cfg.symbol).Nodup)
    {s : Inventory} (hs : DatesBlocks env configs s) (cycle : InventoryCycle env.upper) :
    ReportsBlocks env configs (syncCycle env configs s cycle) cycle ↔
      SidesReadOff env configs s cycle := by
  refine forall_congr' fun cfg => forall_congr' fun hcfg => forall_congr' fun pos =>
    forall_congr' fun hpos => ?_
  have hrow := syncCycle_row hconfigs s cycle hcfg
  have hblock : (syncCycle env configs s cycle).blocks (env.upper cfg.symbol) =
      some (nextBlock cycle.today (s.blocks (env.upper cfg.symbol)) pos) := by
    simp only [syncCycle, hpos, Option.map_some]
  have hdate : (heldRow (onDate env cycle.today) (s.registry.get? (cfg.strategyId,
      env.upper cfg.symbol)) pos).openedSessionDate =
      ((s.blocks (env.upper cfg.symbol)).map (·.since)).getD cycle.today := by
    rw [← hs cfg hcfg]
    rfl
  rw [hpos] at hrow
  rw [hblock, ← nextBlock_since, ← hdate]
  constructor
  · intro h
    obtain ⟨_, ⟨⟩, ⟨row, hget, hside, hsince, -⟩, -⟩ := h
    cases hrow.symm.trans hget
    exact ⟨hside.trans (nextBlock_side _ _ _), hsince⟩
  · intro h
    obtain ⟨hside, hsince⟩ := h
    have hside' := hside.trans (nextBlock_side cycle.today (s.blocks (env.upper cfg.symbol)) pos).symm
    obtain ⟨m, hm, hid, hsymbol, hmside, hmdate, hnotional⟩ := manifest_row hcfg hpos hrow
    refine ⟨_, rfl, ⟨_, hrow, hside', hsince, ?_⟩, m, hm, hid, hsymbol, hmside.trans hside',
      hmdate.trans hsince, hnotional⟩
    rw [← hside']
    rfl

/-- Where a cycle reports the blocks the registry has their dates. -/
theorem datesBlocks_step (hconfigs : (configs.map fun cfg => env.upper cfg.symbol).Nodup)
    {s : Inventory} {cycle : InventoryCycle env.upper}
    (h : ReportsBlocks env configs (syncCycle env configs s cycle) cycle) :
    DatesBlocks env configs (syncCycle env configs s cycle) := by
  intro cfg hcfg
  cases hpos : cycle.position? (env.upper cfg.symbol) with
  | none =>
    rw [syncCycle_row hconfigs s cycle hcfg, hpos]
    simp only [syncCycle, hpos, Option.map_none]
  | some pos =>
    obtain ⟨block, hblock, ⟨row, hrow, -, hsince, -⟩, -⟩ := h cfg hcfg pos hpos
    rw [hrow, hblock, Option.map_some, Option.map_some, hsince]

end Step

/-- **The registry tracks the broker's blocks** along any run of cycles exactly
when each position held is long just when its quantity is positive, and none
changes sides, unless its block began the same day. -/
theorem registry_tracks_blocks_iff (env : CycleEnv) (configs : List StrategyConfig)
    (hconfigs : (configs.map fun cfg => env.upper cfg.symbol).Nodup)
    (cycles : List (InventoryCycle env.upper)) :
    Along (syncCycle env configs)
        (fun s cycle => ReportsBlocks env configs (syncCycle env configs s cycle) cycle) {} cycles ↔
      Along (syncCycle env configs) (SidesReadOff env configs) {} cycles :=
  along_congr_while (I := DatesBlocks env configs) (fun _ _ _ h => datesBlocks_step hconfigs h)
    (fun _ cycle hs => reports_step_iff hconfigs hs cycle) cycles fun _ _ => rfl

def spyBook : List StrategyConfig := [{ strategyId := spyStrategyId, symbol := "SPY" }]

def spyCycle (side : PositionSide) : InventoryCycle stillEnv.upper where
  today := "2026-07-20"
  positions := [{ symbol := "SPY", qty := 5, side, avgEntryPrice := 100 }]
  oneEach := List.nodup_singleton _

/-- A short, whose quantity is a magnitude, is taken for a long. -/
theorem short_reported_long :
    ¬ Along (syncCycle stillEnv spyBook) (fun s cycle =>
      ReportsBlocks stillEnv spyBook (syncCycle stillEnv spyBook s cycle) cycle) {}
        [spyCycle .short] := by
  intro h
  obtain ⟨hreports, -⟩ := h
  obtain ⟨block, hblock, ⟨row, hrow, hside, -⟩, -⟩ := hreports _ (List.mem_singleton_self _) _ rfl
  cases hblock
  cases hrow
  cases hside

/-- A long is reported as it is. -/
theorem long_reported_long :
    Along (syncCycle stillEnv spyBook) (fun s cycle =>
      ReportsBlocks stillEnv spyBook (syncCycle stillEnv spyBook s cycle) cycle) {}
        [spyCycle .long] := by
  refine (registry_tracks_blocks_iff stillEnv spyBook (List.nodup_singleton _) _).mpr ⟨?_, trivial⟩
  intro cfg hcfg pos hpos
  obtain rfl := List.mem_singleton.mp hcfg
  cases hpos
  exact ⟨by decide +kernel, nofun⟩

end TradingPlatform.Engine.Portfolio
