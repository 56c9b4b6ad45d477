import TradingPlatform.Execution.Orders
import TradingPlatform.Lib.Datetime
import TradingPlatform.Lib.Delimited

/-! # Which orders share a client order id

The id is a digest of four fields joined by `|`, none of them escaped and the
time in the offset it carries. -/

namespace TradingPlatform.Execution.OrderIdentity

open TradingPlatform.Lib

/-- `datetime | str`. -/
inductive SignalTs
  | datetime (d : Datetime)
  | text (s : String)

/-- `int | str`. -/
inductive Epoch
  | num (n : ℤ)
  | text (s : String)
  deriving DecidableEq

/-- `signal_ts.isoformat() if isinstance(signal_ts, datetime) else str(signal_ts)`. -/
def SignalTs.str : SignalTs → String
  | .datetime d => d.isoformat
  | .text s => s

def Epoch.str : Epoch → String
  | .num n => toString n
  | .text s => s

structure Args where
  legId : String
  signalTs : SignalTs
  side : String
  epoch : Epoch

section Digest
variable (lower sha256Hex : String → String)

def Args.raw (a : Args) : String :=
  a.legId ++ "|" ++ a.signalTs.str ++ "|" ++ lower a.side ++ "|" ++ a.epoch.str

/-- `hashlib.sha256(raw).hexdigest()[:38]`. -/
def digest (raw : String) : String := String.ofList ((sha256Hex raw).toList.take 38)

def deterministicClientOrderId (a : Args) : String := "mbappe-" ++ digest sha256Hex (a.raw lower)

/-- An intent passes the text of its time. -/
theorem clientOrderId_intent (intent : OrderIntent) :
    intent.clientOrderId lower sha256Hex =
      deterministicClientOrderId lower sha256Hex
        ⟨intent.legId, .text intent.signalTs, intent.side, .num intent.epoch⟩ := rfl

end Digest

/-! ## The order that the arguments denote -/

section Order
variable (lower : String → String) (reads : String → Option Datetime)

/-- A text denotes the instant of the time it is the ISO text of, and whatever it is
read as; nothing is assumed of `reads`. -/
inductive Denotes : SignalTs → Instant → Prop
  | datetime (d : Datetime) : Denotes (.datetime d) d.instant
  | isoformat (d : Datetime) : Denotes (.text d.isoformat) d.instant
  | reading {s : String} {d : Datetime} : reads s = some d → Denotes (.text s) d.instant

/-- The same signal, or two of one instant. -/
def SameSignal (t u : SignalTs) : Prop :=
  t = u ∨ ∃ i, Denotes reads t i ∧ Denotes reads u i

/-- A text is the epoch it spells. -/
def Epoch.Same : Epoch → Epoch → Prop
  | .num n, .num m => n = m
  | .text s, .text t => s = t
  | .num n, .text s | .text s, .num n => toString n = s

structure SameOrder (a b : Args) : Prop where
  leg : a.legId = b.legId
  signal : SameSignal reads a.signalTs b.signalTs
  side : lower a.side = lower b.side
  epoch : Epoch.Same a.epoch b.epoch

end Order

/-- The fields whose bars are not escaped. -/
def Args.fields (lower : String → String) (a : Args) : List (List Char) :=
  [a.legId.toList, a.signalTs.str.toList, (lower a.side).toList, a.epoch.str.toList]

/-! ## Texts of the fields -/

theorem toDigits_injective {m k : ℕ} (h : Nat.toDigits 10 m = Nat.toDigits 10 k) : m = k := by
  have h := congrArg (fun ds => Nat.ofDigitChars 10 ds 0) h
  simpa using h

theorem repr_ne_minus (m k : ℕ) : Nat.repr m ≠ "-" ++ Nat.repr k := by
  intro h
  have h := congrArg String.toList h
  rw [String.toList_append, Nat.toList_repr] at h
  have hminus : '-' ∈ Nat.toDigits 10 m := by
    rw [h]
    exact List.mem_cons_self
  exact absurd (Nat.isDigit_of_mem_toDigits (by omega) (by omega) hminus) (by decide)

theorem toString_injective {n m : ℤ} (h : toString n = toString m) : n = m := by
  cases n with
  | ofNat n => cases m with
    | ofNat m =>
      have h := congrArg String.toList (show Nat.repr n = Nat.repr m from h)
      rw [Nat.toList_repr, Nat.toList_repr] at h
      rw [toDigits_injective h]
    | negSucc m => exact absurd h (repr_ne_minus n (m + 1))
  | negSucc n => cases m with
    | ofNat m => exact absurd h.symm (repr_ne_minus m (n + 1))
    | negSucc m =>
      have h := congrArg String.toList
        (show "-" ++ Nat.repr (n + 1) = "-" ++ Nat.repr (m + 1) from h)
      rw [String.toList_append, String.toList_append, List.append_cancel_left_eq,
        Nat.toList_repr, Nat.toList_repr] at h
      rw [Nat.succ.inj (toDigits_injective h)]

theorem Epoch.same_iff {e f : Epoch} : Epoch.Same e f ↔ e.str = f.str := by
  cases e with
  | num n => cases f with
    | num m => exact ⟨congrArg toString, toString_injective⟩
    | text s => rfl
  | text s => cases f with
    | num m => exact eq_comm
    | text t => rfl

variable {lower sha256Hex : String → String} {reads : String → Option Datetime}

/-- One text, one signal. -/
theorem SameSignal.of_str {t u : SignalTs} (h : t.str = u.str) : SameSignal reads t u := by
  cases t with
  | datetime d => cases u with
    | datetime e =>
      obtain rfl : d = e := Datetime.isoformat_injective h
      exact .inl rfl
    | text s =>
      obtain rfl : d.isoformat = s := h
      exact .inr ⟨d.instant, .datetime d, .isoformat d⟩
  | text s => cases u with
    | datetime e =>
      obtain rfl : s = e.isoformat := h
      exact .inr ⟨e.instant, .isoformat e, .datetime e⟩
    | text s' =>
      obtain rfl : s = s' := h
      exact .inl rfl

theorem toList_raw (a : Args) : (a.raw lower).toList = Delimited.joined '|' (a.fields lower) := by
  simp [Args.raw, Args.fields, Delimited.joined, String.toList_append]

theorem raw_eq_iff {a b : Args} :
    a.raw lower = b.raw lower ↔
      a.fields lower = b.fields lower ∨
        Delimited.CutElsewhere '|' (a.fields lower) (b.fields lower) := by
  rw [← String.toList_inj, toList_raw, toList_raw]
  exact Delimited.joined_eq_iff '|' (List.cons_ne_nil _ _) (List.cons_ne_nil _ _)

theorem fields_eq_iff {a b : Args} :
    a.fields lower = b.fields lower ↔
      a.legId = b.legId ∧ a.signalTs.str = b.signalTs.str ∧ lower a.side = lower b.side ∧
        a.epoch.str = b.epoch.str := by
  simp [Args.fields, String.toList_inj]

theorem SameOrder.fields_eq_iff {a b : Args} (h : SameOrder lower reads a b) :
    a.fields lower = b.fields lower ↔ a.signalTs.str = b.signalTs.str := by
  rw [OrderIdentity.fields_eq_iff]
  exact ⟨fun hfields => hfields.2.1,
    fun hsignal => ⟨h.leg, hsignal, h.side, Epoch.same_iff.mp h.epoch⟩⟩

/-- Of one order, the text tells the time: the other three fields agree. -/
theorem SameOrder.str_of_raw {a b : Args} (h : SameOrder lower reads a b)
    (hraw : a.raw lower = b.raw lower) : a.signalTs.str = b.signalTs.str := by
  rw [Args.raw, Args.raw, h.leg, h.side, Epoch.same_iff.mp h.epoch, ← String.toList_inj] at hraw
  simp only [String.toList_append, List.append_assoc, List.append_cancel_left_eq] at hraw
  exact String.toList_inj.mp (List.append_cancel_right hraw)

/-- The id identifies the order. -/
def Identifies (lower sha256Hex : String → String) (reads : String → Option Datetime)
    (a b : Args) : Prop :=
  deterministicClientOrderId lower sha256Hex a = deterministicClientOrderId lower sha256Hex b ↔
    SameOrder lower reads a b

/-- No collision of the truncated hash between the two texts. -/
theorem clientOrderId_eq_iff {a b : Args}
    (hsha : digest sha256Hex (a.raw lower) = digest sha256Hex (b.raw lower) →
      a.raw lower = b.raw lower) :
    deterministicClientOrderId lower sha256Hex a = deterministicClientOrderId lower sha256Hex b ↔
      a.raw lower = b.raw lower := by
  constructor
  · intro h
    have h := congrArg String.toList h
    unfold deterministicClientOrderId at h
    rw [String.toList_append, String.toList_append, List.append_cancel_left_eq,
      String.toList_inj] at h
    exact hsha h
  · intro h
    rw [deterministicClientOrderId, deterministicClientOrderId, h]

/-- **The id identifies the order** exactly when one order has one text of its time, and
the bars of the fields do not cut one row of pieces at other places. -/
theorem clientOrderId_identifies_iff (lower sha256Hex : String → String)
    (reads : String → Option Datetime) (a b : Args)
    (hsha : digest sha256Hex (a.raw lower) = digest sha256Hex (b.raw lower) →
      a.raw lower = b.raw lower) :
    Identifies lower sha256Hex reads a b ↔
      (SameOrder lower reads a b → a.signalTs.str = b.signalTs.str) ∧
        ¬ Delimited.CutElsewhere '|' (a.fields lower) (b.fields lower) := by
  rw [Identifies, clientOrderId_eq_iff hsha, raw_eq_iff]
  constructor
  · intro h
    have hcut : ¬ Delimited.CutElsewhere '|' (a.fields lower) (b.fields lower) := by
      intro hcut
      have horder : SameOrder lower reads a b := h.mp (.inr hcut)
      have hstr := horder.str_of_raw (raw_eq_iff.mpr (.inr hcut))
      exact hcut.2 (congrArg _ (horder.fields_eq_iff.mpr hstr))
    refine ⟨fun horder => ?_, hcut⟩
    have hfields := (h.mpr horder).resolve_right hcut
    exact horder.fields_eq_iff.mp hfields
  · rintro ⟨hsignal, hcut⟩
    rw [or_iff_left hcut]
    constructor
    · intro hfields
      obtain ⟨hleg, hstr, hside, hepoch⟩ := fields_eq_iff.mp hfields
      exact ⟨hleg, .of_str hstr, hside, Epoch.same_iff.mpr hepoch⟩
    · intro horder
      exact horder.fields_eq_iff.mpr (hsignal horder)

/-- A bar that moves from the leg to the time leaves the id as it is. -/
theorem clientOrderId_moved_bar (lower sha256Hex : String → String) (leg piece time side : String)
    (epoch : Epoch) :
    deterministicClientOrderId lower sha256Hex ⟨leg ++ "|" ++ piece, .text time, side, epoch⟩ =
      deterministicClientOrderId lower sha256Hex
        ⟨leg, .text (piece ++ "|" ++ time), side, epoch⟩ := by
  simp only [deterministicClientOrderId, Args.raw, SignalTs.str, String.append_assoc]

def openingUtc : Datetime :=
  { year := 2024, month := 1, day := 2, hour := 14, minute := 30, utcoffset := some 0 }

def openingNewYork : Datetime :=
  { year := 2024, month := 1, day := 2, hour := 9, minute := 30
    utcoffset := some (-18000000000) }

def openingOrder (d : Datetime) : Args := ⟨"qqq", .datetime d, "buy", .num 1⟩

/-- The digests of three orders' texts. -/
def openingSha256 (raw : String) : String :=
  if raw = "qqq|2024-01-02T14:30:00+00:00|buy|1" then
    "d00fcbd179f18f39d6b019ea715d9563625171fb62a9c13cd84c2df893ebe17e"
  else if raw = "qqq|2024-01-02T09:30:00-05:00|buy|1" then
    "a52bbb4df9bf2f43f26879b696a32830e9176e54c3e2693b1ce7de8bd5388e21"
  else if raw = "qqq|2024-01-02T14:30:00+00:00|sell|1" then
    "a91f0ccd663b49af100a8637055be5a039211bf23b238fa4ec54079b119ac18a"
  else ""

/-- One order, its time given in UTC and in New York. -/
theorem offset_changes_id :
    ¬ Identifies id openingSha256 (fun _ => none) (openingOrder openingUtc)
      (openingOrder openingNewYork) := by
  intro h
  refine absurd (h.mpr ⟨rfl, .inr ⟨openingUtc.instant, .datetime _, ?_⟩, rfl, rfl⟩)
    (by decide +kernel)
  have hinstant : openingUtc.instant = openingNewYork.instant := by decide +kernel
  rw [hinstant]
  exact .datetime _

theorem identifies_sides :
    Identifies id openingSha256 (fun _ => none) (openingOrder openingUtc)
      { openingOrder openingUtc with side := "sell" } :=
  (clientOrderId_identifies_iff id openingSha256 (fun _ => none) (openingOrder openingUtc)
    { openingOrder openingUtc with side := "sell" } (by decide +kernel)).mpr
    ⟨fun _ => rfl, fun hcut => hcut.2 (by decide +kernel)⟩

end TradingPlatform.Execution.OrderIdentity
