import Garcon.App.ConnectionHandler
import Garcon.Http.Grammar

/-!
# The access log

A record is written as one line, with nothing escaped.  The line is read back from the
left: the address, the time stamp, the method, the target and the version each end at a
byte that does not occur in them, because the parser has refused it.
-/

namespace Garcon
namespace App

open Ascii Search Http

/-! ## Time stamps -/

/-- The fields of `std::tm` that are written.  Months count from 0. -/
structure BrokenDownTime where
  day : Nat
  month : Nat
  year : Int
  hour : Nat
  minute : Nat
  second : Nat
deriving DecidableEq, Repr

/-- `gmtime`, by eras of 400 years that begin in March. -/
def gmtime (time : Int) : BrokenDownTime :=
  let days := time / 86400 + 719468
  let second := (time % 86400).toNat
  let dayOfEra := (days % 146097).toNat
  let yearOfEra :=
    (dayOfEra - dayOfEra / 1460 + dayOfEra / 36524 - dayOfEra / 146096) / 365
  let dayOfYear := dayOfEra - (365 * yearOfEra + yearOfEra / 4 - yearOfEra / 100)
  let march := (5 * dayOfYear + 2) / 153
  { day := dayOfYear - (153 * march + 2) / 5 + 1
    month := (march + 2) % 12
    year := days / 146097 * 400 + yearOfEra + (if march < 10 then 0 else 1)
    hour := second / 3600
    minute := second / 60 % 60
    second := second % 60 }

def monthNames : List Bytes :=
  [ascii "Jan", ascii "Feb", ascii "Mar", ascii "Apr", ascii "May", ascii "Jun", ascii "Jul",
    ascii "Aug", ascii "Sep", ascii "Oct", ascii "Nov", ascii "Dec"]

/-- A number below 100 with two digits. -/
def twoDigits (n : Nat) : Bytes := [digit (n / 10 % 10), digit (n % 10)]

/-- `std::put_time` with the format of the log.  The clock counts microseconds. -/
def formatTimestamp (timestamp : Int) : Bytes :=
  let tm := gmtime (timestamp.tdiv 1000000)
  twoDigits tm.day ++ (ascii "/" ++ (monthNames.getD tm.month [] ++ (ascii "/" ++
    (decimalInt tm.year ++ (ascii ":" ++ (twoDigits tm.hour ++ (ascii ":" ++
      (twoDigits tm.minute ++ (ascii ":" ++ (twoDigits tm.second ++ ascii " +0000"))))))))))

example : formatTimestamp 951827696000000 = ascii "29/Feb/2000:12:34:56 +0000" := by
  decide +kernel

/-! ## Lines -/

/-- The address as it is written. -/
def addressText (clientIp : Bytes) : Bytes := if clientIp = [] then ascii "-" else clientIp

/-- The line of a record, without the line break behind it. -/
def logLine (record : AccessRecord) : Bytes :=
  addressText record.clientIp ++ (ascii " - - [" ++
    (formatTimestamp record.timestamp ++ (ascii "] \"" ++ (record.method ++ (ascii " " ++
      (record.target ++ (ascii " " ++ (record.version ++ (ascii "\" " ++
        (decimalInt record.status ++ (ascii " " ++ (decimal record.responseBytes ++
          (ascii " rt_us=" ++ decimalInt record.elapsed)))))))))))))

/-- What is not a control byte and not a space. -/
def Visible (b : UInt8) : Prop := 0x21 ≤ b.toNat ∧ b.toNat ≤ 0x7e

instance (b : UInt8) : Decidable (Visible b) := inferInstanceAs (Decidable (_ ∧ _))

def isControl (b : UInt8) : Bool := b < 0x20 || b == 0x7f

/-- Four numbers below 256. -/
def DottedQuad (address : Bytes) : Prop :=
  ∃ a b c d : UInt8, address = decimal a.toNat ++ 0x2e :: (decimal b.toNat ++ 0x2e ::
    (decimal c.toNat ++ 0x2e :: decimal d.toNat))

theorem visible_of_isDigit {b : UInt8} (h : isDigit b = true) : Visible b := by
  rw [isDigit_iff] at h
  exact ⟨by omega, by omega⟩

theorem sp_not_mem {text : Bytes} (h : ∀ b ∈ text, Visible b) : sp ∉ text :=
  fun hm => absurd (h sp hm) (by decide)

theorem isControl_of_visible {b : UInt8} (h : Visible b ∨ b = sp) : isControl b = false := by
  rcases h with h | rfl
  · unfold Visible at h
    rw [Bool.eq_false_iff]
    intro hcontrol
    simp only [isControl, Bool.or_eq_true, decide_eq_true_eq, beq_iff_eq, UInt8.lt_iff_toNat_lt,
      ← UInt8.toNat_inj, UInt8.reduceToNat] at hcontrol
    omega
  · rfl

theorem visible_decimal (n : Nat) : ∀ b ∈ decimal n, Visible b :=
  fun _ hb => visible_of_isDigit (isDigit_of_mem_decimal hb)

theorem visible_decimalInt (n : Int) : ∀ b ∈ decimalInt n, Visible b := by
  unfold decimalInt
  split
  · exact List.forall_mem_cons.mpr ⟨by decide, visible_decimal _⟩
  · exact visible_decimal _

theorem DottedQuad.visible {address : Bytes} (h : DottedQuad address) :
    ∀ b ∈ address, Visible b := by
  obtain ⟨a, b, c, d, rfl⟩ := h
  have hdot : Visible 0x2e := by decide
  exact List.forall_mem_append.mpr ⟨visible_decimal _, List.forall_mem_cons.mpr ⟨hdot,
    List.forall_mem_append.mpr ⟨visible_decimal _, List.forall_mem_cons.mpr ⟨hdot,
      List.forall_mem_append.mpr ⟨visible_decimal _, List.forall_mem_cons.mpr ⟨hdot,
        visible_decimal _⟩⟩⟩⟩⟩⟩

theorem DottedQuad.ne_minus {address : Bytes} (h : DottedQuad address) : address ≠ ascii "-" := by
  obtain ⟨a, b, c, d, rfl⟩ := h
  obtain ⟨first, rest, hrest⟩ := List.exists_cons_of_ne_nil (decimal_ne_nil a.toNat)
  rw [hrest]
  intro heq
  have hfirst : first = 0x2d := (List.cons.inj heq).1
  exact decimal_ne_minus_cons _ _ (hfirst ▸ hrest)

/-- The bytes of a time stamp. -/
def InStamp (b : UInt8) : Prop := (Visible b ∨ b = sp) ∧ b ≠ 0x5d

instance (b : UInt8) : Decidable (InStamp b) := inferInstanceAs (Decidable (_ ∧ _))

theorem inStamp_of_isDigit {b : UInt8} (h : isDigit b = true) : InStamp b := by
  refine ⟨Or.inl (visible_of_isDigit h), ?_⟩
  rintro rfl
  cases h

theorem inStamp_twoDigits (n : Nat) : ∀ b ∈ twoDigits n, InStamp b := by
  have hdigit : ∀ d < 10, InStamp (digit d) := fun d hd => inStamp_of_isDigit (isDigit_digit hd)
  exact List.forall_mem_cons.mpr ⟨hdigit _ (Nat.mod_lt _ (by decide)),
    List.forall_mem_singleton.mpr (hdigit _ (Nat.mod_lt _ (by decide)))⟩

theorem inStamp_decimalInt (n : Int) : ∀ b ∈ decimalInt n, InStamp b := by
  intro b hb
  refine ⟨Or.inl (visible_decimalInt n b hb), ?_⟩
  rintro rfl
  exact not_mem_decimalInt (by decide) (by decide) hb

theorem inStamp_monthNames (month : Nat) : ∀ b ∈ monthNames.getD month [], InStamp b := by
  have hnames : monthNames.all (fun name => name.all fun b => decide (InStamp b)) = true := by
    decide +kernel
  rcases Nat.lt_or_ge month monthNames.length with h | h
  · rw [List.getD_eq_getElem _ _ h]
    have hname := List.all_eq_true.mp hnames _ (List.getElem_mem h)
    exact List.all_iff_forall_prop.mp hname
  · rw [List.getD_eq_default _ _ h]
    exact fun b hb => absurd hb List.not_mem_nil

theorem inStamp_formatTimestamp (timestamp : Int) :
    ∀ b ∈ formatTimestamp timestamp, InStamp b := by
  have hslash : ∀ b ∈ ascii "/", InStamp b := by decide +kernel
  have hcolon : ∀ b ∈ ascii ":", InStamp b := by decide +kernel
  have hzone : ∀ b ∈ ascii " +0000", InStamp b := by decide +kernel
  unfold formatTimestamp
  simp only [List.forall_mem_append]
  exact ⟨inStamp_twoDigits _, hslash, inStamp_monthNames _, hslash, inStamp_decimalInt _, hcolon,
    inStamp_twoDigits _, hcolon, inStamp_twoDigits _, hcolon, inStamp_twoDigits _, hzone⟩

/-! ## Records -/

/-- What the parser leaves of the fields of a record. -/
structure Loggable (record : AccessRecord) : Prop where
  address : record.clientIp = [] ∨ DottedQuad record.clientIp
  method : ∀ b ∈ record.method, Visible b
  target : ∀ b ∈ record.target, Visible b
  version : record.version = ascii "HTTP/1.0" ∨ record.version = ascii "HTTP/1.1"

/-- Two records agree but for their time stamps. -/
structure SameEntry (record record' : AccessRecord) : Prop where
  clientIp : record.clientIp = record'.clientIp
  method : record.method = record'.method
  target : record.target = record'.target
  version : record.version = record'.version
  status : record.status = record'.status
  responseBytes : record.responseBytes = record'.responseBytes
  elapsed : record.elapsed = record'.elapsed

theorem visible_addressText {clientIp : Bytes} (h : clientIp = [] ∨ DottedQuad clientIp) :
    ∀ b ∈ addressText clientIp, Visible b := by
  unfold addressText
  by_cases hempty : clientIp = []
  · rw [if_pos hempty]
    decide +kernel
  · rw [if_neg hempty]
    exact (h.resolve_left hempty).visible

theorem addressText_injective {clientIp clientIp' : Bytes}
    (h : clientIp = [] ∨ DottedQuad clientIp) (h' : clientIp' = [] ∨ DottedQuad clientIp')
    (heq : addressText clientIp = addressText clientIp') : clientIp = clientIp' := by
  unfold addressText at heq
  by_cases hempty : clientIp = []
  · by_cases hempty' : clientIp' = []
    · rw [hempty, hempty']
    · rw [if_pos hempty, if_neg hempty'] at heq
      exact absurd heq.symm (h'.resolve_left hempty').ne_minus
  · by_cases hempty' : clientIp' = []
    · rw [if_neg hempty, if_pos hempty'] at heq
      exact absurd heq (h.resolve_left hempty).ne_minus
    · rwa [if_neg hempty, if_neg hempty'] at heq

section

variable {record record' : AccessRecord}

theorem Loggable.visible_version (h : Loggable record) : ∀ b ∈ record.version, Visible b := by
  rcases h.version with hversion | hversion
  · rw [hversion]
    decide +kernel
  · rw [hversion]
    decide +kernel

theorem Loggable.quote_not_mem (h : Loggable record) : 0x22 ∉ record.version := by
  rcases h.version with hversion | hversion
  · rw [hversion]
    decide +kernel
  · rw [hversion]
    decide +kernel

theorem isControl_logLine (h : Loggable record) : (logLine record).any isControl = false := by
  have hplain : ∀ b ∈ logLine record, Visible b ∨ b = sp := by
    have hvisible : ∀ {text : Bytes}, (∀ b ∈ text, Visible b) → ∀ b ∈ text, Visible b ∨ b = sp :=
      fun htext b hb => Or.inl (htext b hb)
    have hopen : ∀ b ∈ ascii " - - [", Visible b ∨ b = sp := by decide +kernel
    have hquote : ∀ b ∈ ascii "] \"", Visible b ∨ b = sp := by decide +kernel
    have hunquote : ∀ b ∈ ascii "\" ", Visible b ∨ b = sp := by decide +kernel
    have hsp : ∀ b ∈ ascii " ", Visible b ∨ b = sp := by decide +kernel
    have hlabel : ∀ b ∈ ascii " rt_us=", Visible b ∨ b = sp := by decide +kernel
    unfold logLine
    simp only [List.forall_mem_append]
    exact ⟨hvisible (visible_addressText h.address), hopen,
      fun b hb => (inStamp_formatTimestamp _ b hb).1, hquote, hvisible h.method, hsp,
      hvisible h.target, hsp, hvisible h.visible_version, hunquote,
      hvisible (visible_decimalInt _), hsp, hvisible (visible_decimal _), hlabel,
      hvisible (visible_decimalInt _)⟩
  rw [List.any_eq_false]
  intro b hb
  rw [isControl_of_visible (hplain b hb)]
  decide

/-- The line with the bytes at which its fields end. -/
theorem logLine_eq (record : AccessRecord) :
    logLine record = addressText record.clientIp ++ sp :: (ascii "- - [" ++
      (formatTimestamp record.timestamp ++ 0x5d :: (ascii " \"" ++ (record.method ++ sp ::
        (record.target ++ sp :: (record.version ++ 0x22 :: (sp ::
          (decimalInt record.status ++ sp :: (decimal record.responseBytes ++ sp ::
            (ascii "rt_us=" ++ decimalInt record.elapsed)))))))))) := rfl

/-- A line is read back from the left. -/
theorem sameEntry_of_logLine_eq (h : Loggable record) (h' : Loggable record')
    (heq : logLine record = logLine record') : SameEntry record record' := by
  rw [logLine_eq, logLine_eq] at heq
  obtain ⟨haddress, heq⟩ := append_cons_inj (sp_not_mem (visible_addressText h.address))
    (sp_not_mem (visible_addressText h'.address)) heq
  have hstamp : ∀ timestamp, 0x5d ∉ formatTimestamp timestamp :=
    fun timestamp hm => (inStamp_formatTimestamp timestamp _ hm).2 rfl
  obtain ⟨-, heq⟩ := append_cons_inj (hstamp _) (hstamp _) (List.append_cancel_left heq)
  obtain ⟨hmethod, heq⟩ := append_cons_inj (sp_not_mem h.method) (sp_not_mem h'.method)
    (List.append_cancel_left heq)
  obtain ⟨htarget, heq⟩ := append_cons_inj (sp_not_mem h.target) (sp_not_mem h'.target) heq
  obtain ⟨hversion, heq⟩ := append_cons_inj h.quote_not_mem h'.quote_not_mem heq
  obtain ⟨hstatus, heq⟩ := append_cons_inj (sp_not_mem (visible_decimalInt _))
    (sp_not_mem (visible_decimalInt _)) (List.cons.inj heq).2
  obtain ⟨hbytes, heq⟩ := append_cons_inj (sp_not_mem (visible_decimal _))
    (sp_not_mem (visible_decimal _)) heq
  exact
    { clientIp := addressText_injective h.address h'.address haddress
      method := hmethod
      target := htarget
      version := hversion
      status := decimalInt_injective hstatus
      responseBytes := decimal_injective hbytes
      elapsed := decimalInt_injective (List.append_cancel_left heq) }

end

/-! ## Calls of the log -/

theorem visible_of_isToken {text : Bytes} (h : isToken text = true) : ∀ b ∈ text, Visible b := by
  have hchars : ∀ b : UInt8, isTokenChar b = true → Visible b := by decide +kernel
  intro b hb
  rw [isToken, Bool.and_eq_true, List.all_eq_true] at h
  exact hchars b (h.2 b hb)

/-- What the parser has checked. -/
theorem fields_of_parse {headerBlock : Bytes} {request : Request}
    (h : Request.parse headerBlock = .ok request) :
    (∀ b ∈ request.method, Visible b) ∧ TargetText request.target ∧
      (request.versionString = ascii "HTTP/1.0" ∨ request.versionString = ascii "HTTP/1.1") := by
  obtain ⟨rest, version, lines, hmethod, htarget, hversion, -⟩ := parse_ok_iff.mp h
  refine ⟨visible_of_isToken hmethod, htarget, ?_⟩
  unfold Request.versionString
  rcases hversion with ⟨-, hmajor, hminor⟩ | ⟨-, hmajor, hminor⟩
  · rw [hmajor, hminor]
    exact Or.inl (by decide +kernel)
  · rw [hmajor, hminor]
    exact Or.inr (by decide +kernel)

/-- What `log_access` is called with. -/
structure LogCall where
  clientIp : Bytes
  request : Option Request
  response : Response
  wireBytes : Nat
  timing : Timing

namespace LogCall

def record (call : LogCall) : AccessRecord :=
  ConnectionHandler.logAccess call.clientIp call.request call.response call.wireBytes call.timing

/-- A peer address or none, and a request that was parsed or none. -/
structure Valid (call : LogCall) : Prop where
  address : call.clientIp = [] ∨ DottedQuad call.clientIp
  parsed : ∀ request ∈ call.request, ∃ headerBlock, Request.parse headerBlock = .ok request

theorem Valid.loggable {call : LogCall} (h : call.Valid) : Loggable call.record := by
  obtain ⟨clientIp, request, response, wireBytes, timing⟩ := call
  cases request with
  | none =>
      have hminus : ∀ b ∈ ascii "-", Visible b := by decide +kernel
      exact ⟨h.address, hminus, hminus, Or.inr rfl⟩
  | some request =>
      obtain ⟨headerBlock, hparse⟩ := h.parsed request rfl
      obtain ⟨hmethod, htarget, hversion⟩ := fields_of_parse hparse
      exact ⟨h.address, hmethod, fun b hb => ⟨(htarget.2 b hb).1, (htarget.2 b hb).2.1⟩, hversion⟩

/-- The placeholder is no target. -/
theorem Valid.target_eq_minus_iff {call : LogCall} (h : call.Valid) :
    call.record.target = ascii "-" ↔ call.request = none := by
  obtain ⟨clientIp, request, response, wireBytes, timing⟩ := call
  cases request with
  | none => exact iff_of_true rfl rfl
  | some request =>
      obtain ⟨headerBlock, hparse⟩ := h.parsed request rfl
      have hslash := (fields_of_parse hparse).2.1.1
      refine iff_of_false (fun htarget => ?_) (fun hnone => nomatch hnone)
      have hhead : request.target.head? = some 0x2d := congrArg List.head? htarget
      rw [hslash] at hhead
      cases hhead

end LogCall

/-- No line holds a control byte, and two lines that are equal are lines of the same entry. -/
theorem logLine_unforgeable {call call' : LogCall} (h : call.Valid) (h' : call'.Valid) :
    (logLine call.record).any isControl = false ∧
      (logLine call.record = logLine call'.record →
        SameEntry call.record call'.record ∧ (call.request = none ↔ call'.request = none)) := by
  refine ⟨isControl_logLine h.loggable, fun heq => ?_⟩
  have hsame := sameEntry_of_logLine_eq h.loggable h'.loggable heq
  refine ⟨hsame, ?_⟩
  rw [← h.target_eq_minus_iff, ← h'.target_eq_minus_iff, hsame.target]

/-- A target that looks like the end of another line. -/
def quotedTarget : LogCall where
  clientIp := ascii "203.0.113.7"
  request := some
    { method := ascii "GET", target := ascii "/\"_200_0_rt_us=1", headers := [] }
  response := { status := 404 }
  wireBytes := 100
  timing := { timestamp := 0, elapsed := 52 }

def badLine : LogCall where
  clientIp := []
  request := none
  response := { status := 400 }
  wireBytes := 120
  timing := { timestamp := 0, elapsed := 9 }

theorem logLine_unforgeable_quoted :
    (logLine quotedTarget.record).any isControl = false ∧
      (logLine quotedTarget.record = logLine badLine.record →
        SameEntry quotedTarget.record badLine.record ∧
          (quotedTarget.request = none ↔ badLine.request = none)) := by
  have haddress : DottedQuad quotedTarget.clientIp := ⟨203, 0, 113, 7, by decide +kernel⟩
  have hparse : Request.parse (ascii "GET /\"_200_0_rt_us=1 HTTP/1.1" ++ headerEnd) =
      .ok { method := ascii "GET", target := ascii "/\"_200_0_rt_us=1", headers := [] } := by
    decide +kernel
  refine logLine_unforgeable ⟨Or.inr haddress, ?_⟩ ⟨Or.inl rfl, fun request h => nomatch h⟩
  intro request h
  cases h
  exact ⟨_, hparse⟩

end App
end Garcon
