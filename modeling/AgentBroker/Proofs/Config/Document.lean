import AgentBroker.Config.Document
import AgentBroker.Proofs.Toml.Bounds
import AgentBroker.Proofs.Toml.Document

/-!
# Settings are read back

Settings that have been read can be written, since no number among them is too large for a document,
and what is written is read as the same settings.
-/

namespace AgentBroker

open Toml

/-- The number fits 64 bits with a sign, so that it can be written. -/
def FitsSign (n : UInt64) : Prop := n.toNat ≤ Int64.maxValue.toInt.toNat

instance : DecidablePred FitsSign := fun n => inferInstanceAs (Decidable (n.toNat ≤ _))

namespace Toml

variable {v : Toml}

theorem natBelow?_ofNat {n bound : Nat} (below : n < bound) :
    natBelow? bound (.integer n) = some n := by
  rw [natBelow?, if_pos ⟨Int.natCast_nonneg n, Int.ofNat_lt.mpr below⟩, Int.toNat_natCast]

theorem uint16?_toNat (n : UInt16) : uint16? (.integer n.toNat) = some n := by
  rw [uint16?, natBelow?_ofNat n.toNat_lt_size, Option.map_some, UInt16.ofNat_toNat]

theorem uint64?_toNat (n : UInt64) : uint64? (.integer n.toNat) = some n := by
  rw [uint64?, natBelow?_ofNat n.toNat_lt_size, Option.map_some, UInt64.ofNat_toNat]

theorem yields_uint64? (fits : v.Fits) : Yields FitsSign v.uint64? := by
  cases fits with
  | @integer i le =>
    rw [uint64?, natBelow?]
    split
    next within =>
      apply Yields.pure
      rw [FitsSign, UInt64.toNat_ofNat_of_lt' (by omega)]
      exact Int.toNat_le_toNat le
    next => exact .none
  | _ => exact .none

theorem yields_section? (keys : List String) (fits : v.Fits) :
    Yields (fun os => ∀ o ∈ os, ∀ w, o = some w → w.Fits) (v.section? keys) := by
  cases fits with
  | table all =>
    apply Yields.pure
    intro o mem w found
    obtain ⟨key, -, rfl⟩ := List.mem_map.mp mem
    exact AllFit.lookup all w found
  | array all =>
    apply Yields.pure
    intro o mem w found
    obtain ⟨k, -, rfl⟩ := List.mem_map.mp mem
    exact all w (List.mem_of_getElem? found)
  | tables all =>
    apply Yields.pure
    intro o mem w found
    obtain ⟨k, -, rfl⟩ := List.mem_map.mp mem
    obtain ⟨ms, here, rfl⟩ := Option.map_eq_some_iff.mp found
    exact .table (all ms (List.mem_of_getElem? here))
  | moment =>
    apply Yields.pure
    intro o mem w found
    obtain ⟨key, -, rfl⟩ := List.mem_map.mp mem
    cases found
  | _ => exact .none

theorem settingOr?_some {α : Type} {read : Toml → Option α} {default a : α}
    (given : read v = some a) : settingOr? read default (some v) = some a := by
  rw [settingOr?, given]

theorem yields_settingOr? {α : Type} {p : α → Prop} {read : Toml → Option α} {default : α}
    {o : Option Toml} (own : p default) (given : ∀ w, o = some w → Yields p (read w)) :
    Yields p (settingOr? read default o) := by
  cases o with
  | none => exact .pure own
  | some w => exact given w rfl

end Toml

def ListenerSettings.IsPrintable (s : ListenerSettings) : Prop :=
  FitsSign s.handshakeTimeoutMs ∧ FitsSign s.maxFrameBytes

def ExpirySettings.IsPrintable (s : ExpirySettings) : Prop :=
  (∀ n, s.idleTimeoutSecs = some n → FitsSign n) ∧
    FitsSign s.sweepIntervalSecs

theorem ListenerSettings.yields_ofToml? {v : Toml} (fits : v.Fits) :
    Yields IsPrintable (ofToml? v) := by
  rw [ofToml?]
  refine (yields_section? _ fits).bind fun os all => ?_
  split
  next host port timeout maxFrame =>
    have number (o : Option Toml) (mem : o ∈ [host, port, timeout, maxFrame]) (w : Toml)
        (found : o = some w) : Yields FitsSign w.uint64? :=
      yields_uint64? (all o mem w found)
    refine .bind_any fun _ => .bind_any fun _ => ?_
    refine (yields_settingOr? (by decide) (number timeout (by simp))).bind fun t small => ?_
    refine (yields_settingOr? (by decide) (number maxFrame (by simp))).bind fun m small' => ?_
    exact .pure ⟨small, small'⟩
  next => exact .none

theorem ExpirySettings.yields_ofToml? {v : Toml} (fits : v.Fits) :
    Yields IsPrintable (ofToml? v) := by
  rw [ofToml?]
  refine (yields_section? _ fits).bind fun os all => ?_
  split
  next timeout interval =>
    have number (o : Option Toml) (mem : o ∈ [timeout, interval]) (w : Toml)
        (found : o = some w) : Yields FitsSign w.uint64? :=
      yields_uint64? (all o mem w found)
    have given (w : Toml) (found : timeout = some w) :
        Yields (fun t => ∀ n, t = some n → FitsSign n) (w.uint64?.map some) := by
      refine (number timeout (by simp) w found).map fun n small => ?_
      rintro n' same
      cases same
      exact small
    have idle : Yields (fun t => ∀ n, t = some n → FitsSign n)
        (settingOr? (fun v => v.uint64?.map some) none timeout) := yields_settingOr? nofun given
    refine idle.bind fun t small => ?_
    refine (yields_settingOr? (by decide) (number interval (by simp))).bind fun i small' => ?_
    exact .pure ⟨small, small'⟩
  next => exact .none

namespace Settings

/-- Every number among the settings can be written. -/
structure IsPrintable (s : Settings) : Prop where
  listener : s.listener.IsPrintable
  expiry : s.expiry.IsPrintable

theorem yields_ofToml? {v : Toml} (fits : v.Fits) : Yields IsPrintable (ofToml? v) := by
  rw [ofToml?]
  refine (yields_section? _ fits).bind fun os all => ?_
  split
  next listener notifications expiry health =>
    have ownListener : ListenerSettings.IsPrintable default := ⟨by decide, by decide⟩
    have ownExpiry : ExpirySettings.IsPrintable default := ⟨nofun, by decide⟩
    refine (yields_settingOr? ownListener fun w found =>
      ListenerSettings.yields_ofToml? (all listener (by simp) w found)).bind fun l small => ?_
    refine .bind_any fun n => ?_
    refine (yields_settingOr? ownExpiry fun w found =>
      ExpirySettings.yields_ofToml? (all expiry (by simp) w found)).bind fun e small' => ?_
    refine .bind_any fun h => ?_
    exact .pure ⟨small, small'⟩
  next => exact .none

end Settings

namespace Toml

namespace Entry

def quoted (key value : String) : Entry := ⟨key, quote value.toList, .string value⟩

def number (key : String) (n : Nat) : Entry := ⟨key, Nat.toDigits 10 n, .integer n⟩

def flag (key : String) (b : Bool) : Entry := ⟨key, (Settings.boolText b).toList, .bool b⟩

theorem writes_quoted (key value : String) :
    Writes (quoted key value).text (quoted key value).value := by
  have writes := writes_quote value.toList
  rwa [String.ofList_toList] at writes

theorem writes_number (key : String) {n : UInt64} (fits : FitsSign n) :
    Writes (number key n.toNat).text (number key n.toNat).value :=
  writes_nat (Int.ofNat_le.mpr fits)

theorem writes_port (key : String) (n : UInt16) :
    Writes (number key n.toNat).text (number key n.toNat).value := by
  apply writes_nat
  have small : (n.toNat : Int) < UInt16.size := Int.ofNat_lt.mpr n.toNat_lt_size
  exact Int.le_trans (Int.le_of_lt small) (by decide)

theorem writes_flag (key : String) (b : Bool) : Writes (flag key b).text (flag key b).value :=
  writes_bool b

end Entry

section

variable {s : Section} {keys : List String}

theorem Section.lawful_of_keys (given : s.entries.map Entry.key = keys) (name : IsBare s.name)
    (bare : ∀ key ∈ keys, IsBare key) (nodup : keys.Nodup)
    (values : ∀ e ∈ s.entries, Writes e.text e.value) : s.Lawful := by
  subst given
  exact ⟨name, List.forall_mem_map.mp bare, nodup, values⟩

theorem section?_members (given : s.entries.map Entry.key = keys) (nodup : keys.Nodup) :
    (table .header s.members).section? keys = some (s.entries.map fun e => some e.value) := by
  subst given
  rw [section?, List.map_map]
  refine congrArg some (List.map_congr_left fun e mem => ?_)
  exact lookup_members nodup mem

end

end Toml

open Toml.Entry (line quoted number flag writes_quoted writes_port writes_number writes_flag)

namespace ListenerSettings

def toSection (s : ListenerSettings) : Section :=
  ⟨"broker", [quoted "host" s.host, number "port" s.port.toNat,
    number "handshake_timeout_ms" s.handshakeTimeoutMs.toNat,
    number "max_frame_bytes" s.maxFrameBytes.toNat]⟩

theorem toSection_keys (s : ListenerSettings) : s.toSection.entries.map Toml.Entry.key =
    ["host", "port", "handshake_timeout_ms", "max_frame_bytes"] := rfl

theorem toSection_lawful {s : ListenerSettings} (printable : s.IsPrintable) :
    s.toSection.Lawful := by
  apply Section.lawful_of_keys s.toSection_keys
  · exact (by decide : IsBare "broker")
  · decide
  · decide
  · simp only [toSection, List.forall_mem_cons]
    exact ⟨writes_quoted _ _, writes_port _ _, writes_number _ printable.1,
      writes_number _ printable.2, nofun⟩

theorem ofToml?_given {v host port timeout maxFrame : Toml} {s : ListenerSettings}
    (given : v.section? ["host", "port", "handshake_timeout_ms", "max_frame_bytes"] =
      some [some host, some port, some timeout, some maxFrame])
    (readHost : host.string? = some s.host) (readPort : port.uint16? = some s.port)
    (readTimeout : timeout.uint64? = some s.handshakeTimeoutMs)
    (readMaxFrame : maxFrame.uint64? = some s.maxFrameBytes) : ofToml? v = some s := by
  rw [ofToml?, given]
  simp only [settingOr?_some readHost, settingOr?_some readPort, settingOr?_some readTimeout,
    settingOr?_some readMaxFrame, Option.bind_eq_bind, Option.bind_some, Option.pure_def]

theorem ofToml?_toSection (s : ListenerSettings) :
    ofToml? (.table .header s.toSection.members) = some s :=
  ofToml?_given (section?_members s.toSection_keys (by decide)) rfl (uint16?_toNat s.port)
    (uint64?_toNat s.handshakeTimeoutMs) (uint64?_toNat s.maxFrameBytes)

end ListenerSettings

namespace NotificationSettings

def toSection (s : NotificationSettings) : Section :=
  ⟨"notifications", [flag "routing_errors" s.routingErrors,
    flag "protocol_errors" s.protocolErrors]⟩

theorem toSection_keys (s : NotificationSettings) : s.toSection.entries.map Toml.Entry.key =
    ["routing_errors", "protocol_errors"] := rfl

theorem toSection_lawful (s : NotificationSettings) : s.toSection.Lawful := by
  apply Section.lawful_of_keys s.toSection_keys
  · exact (by decide : IsBare "notifications")
  · decide
  · decide
  · simp only [toSection, List.forall_mem_cons]
    exact ⟨writes_flag _ _, writes_flag _ _, nofun⟩

theorem ofToml?_toSection (s : NotificationSettings) :
    ofToml? (.table .header s.toSection.members) = some s := by
  rw [ofToml?, section?_members s.toSection_keys (by decide)]
  rfl

end NotificationSettings

namespace ExpirySettings

def toSection (s : ExpirySettings) : Section :=
  ⟨"conversations", (s.idleTimeoutSecs.map fun n => number "idle_timeout_secs" n.toNat).toList ++
    [number "sweep_interval_secs" s.sweepIntervalSecs.toNat]⟩

theorem toSection_lawful {s : ExpirySettings} (printable : s.IsPrintable) :
    s.toSection.Lawful := by
  have bare : IsBare "conversations" := by decide
  obtain ⟨idle, small⟩ := printable
  obtain ⟨timeout, interval⟩ := s
  cases timeout with
  | none =>
    have keys : (toSection ⟨none, interval⟩).entries.map Toml.Entry.key =
        ["sweep_interval_secs"] := rfl
    refine Section.lawful_of_keys keys bare (by decide) (by decide) ?_
    exact List.forall_mem_cons.mpr ⟨writes_number _ small, nofun⟩
  | some n =>
    have keys : (toSection ⟨some n, interval⟩).entries.map Toml.Entry.key =
        ["idle_timeout_secs", "sweep_interval_secs"] := rfl
    refine Section.lawful_of_keys keys bare (by decide) (by decide) ?_
    exact List.forall_mem_cons.mpr ⟨writes_number _ (idle n rfl),
      List.forall_mem_cons.mpr ⟨writes_number _ small, nofun⟩⟩

theorem ofToml?_given {v interval : Toml} {timeout : Option Toml} {s : ExpirySettings}
    (given : v.section? ["idle_timeout_secs", "sweep_interval_secs"] =
      some [timeout, some interval])
    (readTimeout : settingOr? (fun v => v.uint64?.map some) none timeout = some s.idleTimeoutSecs)
    (readInterval : interval.uint64? = some s.sweepIntervalSecs) : ofToml? v = some s := by
  rw [ofToml?, given]
  simp only [readTimeout, settingOr?_some readInterval, Option.bind_eq_bind, Option.bind_some,
    Option.pure_def]

theorem ofToml?_toSection (s : ExpirySettings) :
    ofToml? (.table .header s.toSection.members) = some s := by
  obtain ⟨timeout, interval⟩ := s
  cases timeout with
  | none =>
    have given : section? ["idle_timeout_secs", "sweep_interval_secs"]
        (.table .header (toSection ⟨none, interval⟩).members) =
        some [none, some (.integer interval.toNat)] := rfl
    exact ofToml?_given given rfl (uint64?_toNat interval)
  | some n =>
    have read : (Toml.integer n.toNat).uint64?.map some = some (some n) := by
      rw [uint64?_toNat, Option.map_some]
    exact ofToml?_given (section?_members rfl (by decide)) (settingOr?_some read)
      (uint64?_toNat interval)

end ExpirySettings

namespace HealthSettings

def toSection (s : HealthSettings) : Section :=
  ⟨"health", [flag "enabled" s.enabled, number "port" s.port.toNat]⟩

theorem toSection_keys (s : HealthSettings) : s.toSection.entries.map Toml.Entry.key =
    ["enabled", "port"] := rfl

theorem toSection_lawful (s : HealthSettings) : s.toSection.Lawful := by
  apply Section.lawful_of_keys s.toSection_keys
  · exact (by decide : IsBare "health")
  · decide
  · decide
  · simp only [toSection, List.forall_mem_cons]
    exact ⟨writes_flag _ _, writes_port _ _, nofun⟩

theorem ofToml?_given {v enabled port : Toml} {s : HealthSettings}
    (given : v.section? ["enabled", "port"] = some [some enabled, some port])
    (readEnabled : enabled.bool? = some s.enabled) (readPort : port.uint16? = some s.port) :
    ofToml? v = some s := by
  rw [ofToml?, given]
  simp only [settingOr?_some readEnabled, settingOr?_some readPort, Option.bind_eq_bind,
    Option.bind_some, Option.pure_def]

theorem ofToml?_toSection (s : HealthSettings) :
    ofToml? (.table .header s.toSection.members) = some s :=
  ofToml?_given (section?_members s.toSection_keys (by decide)) rfl (uint16?_toNat s.port)

end HealthSettings

namespace Settings

def sections (s : Settings) : List Section :=
  [s.listener.toSection, s.notifications.toSection, s.expiry.toSection, s.health.toSection]

theorem sections_lawful {s : Settings} (printable : s.IsPrintable) :
    ∀ sec ∈ s.sections, sec.Lawful := by
  simp only [sections, List.forall_mem_cons]
  exact ⟨ListenerSettings.toSection_lawful printable.listener, s.notifications.toSection_lawful,
    ExpirySettings.toSection_lawful printable.expiry, s.health.toSection_lawful, nofun⟩

theorem sections_names (s : Settings) : s.sections.map Section.name =
    ["broker", "notifications", "conversations", "health"] := rfl

theorem sections_nodup (s : Settings) : (s.sections.map Section.name).Nodup := by
  rw [sections_names]
  decide

theorem ofToml?_given {v listener notifications expiry health : Toml} {s : Settings}
    (given : v.section? ["broker", "notifications", "conversations", "health"] =
      some [some listener, some notifications, some expiry, some health])
    (readListener : ListenerSettings.ofToml? listener = some s.listener)
    (readNotifications : NotificationSettings.ofToml? notifications = some s.notifications)
    (readExpiry : ExpirySettings.ofToml? expiry = some s.expiry)
    (readHealth : HealthSettings.ofToml? health = some s.health) : ofToml? v = some s := by
  rw [ofToml?, given]
  simp only [settingOr?_some readListener, settingOr?_some readNotifications,
    settingOr?_some readExpiry, settingOr?_some readHealth, Option.bind_eq_bind, Option.bind_some,
    Option.pure_def]

theorem ofToml?_sections (s : Settings) :
    ofToml? (.table .header (document s.sections)) = some s :=
  ofToml?_given rfl s.listener.ofToml?_toSection s.notifications.ofToml?_toSection
    s.expiry.ofToml?_toSection s.health.ofToml?_toSection

theorem toList_settingLine (key value : String) :
    (settingLine key value).toList = key.toList ++ ' ' :: '=' :: ' ' :: value.toList ++ ['\n'] := by
  simp [settingLine]

theorem print?_eq {s : Settings} (printable : s.IsPrintable) :
    s.print? = some (String.ofList (documentText s.sections)) := by
  obtain ⟨⟨timeout, maxFrame⟩, idle, interval⟩ := printable
  have fitting {n : UInt64} (fits : FitsSign n) : numberText? n = some (toString n.toNat) :=
    if_pos fits
  have digits (n : Nat) : (toString n).toList = Nat.toDigits 10 n := String.toList_ofList
  have broker : "[broker]\n".toList = '[' :: "broker".toList ++ [']', '\n'] := rfl
  have notifications : "\n[notifications]\n".toList =
      '\n' :: '[' :: "notifications".toList ++ [']', '\n'] := rfl
  have conversations : "\n[conversations]\n".toList =
      '\n' :: '[' :: "conversations".toList ++ [']', '\n'] := rfl
  have health : "\n[health]\n".toList = '\n' :: '[' :: "health".toList ++ [']', '\n'] := rfl
  simp only [print?, fitting timeout, fitting maxFrame, fitting interval]
  cases same : s.expiry.idleTimeoutSecs
  case' some n => simp only [fitting (idle n same)]
  all_goals
    refine congrArg some (String.toList_injective ?_)
    simp only [String.toList_append, toList_settingLine, String.toList_ofList, String.toList_empty,
      digits, broker, notifications, conversations, health]
    simp only [documentText, sections, Section.text, Section.header, ListenerSettings.toSection,
      NotificationSettings.toSection, ExpirySettings.toSection, HealthSettings.toSection, same,
      Option.map_none, Option.map_some, Option.toList_none, Option.toList_some, line, quoted,
      number, flag, List.intercalate, List.intersperse, List.map_cons, List.map_nil,
      List.flatten_cons, List.flatten_nil, List.flatMap_cons, List.flatMap_nil, List.append_assoc,
      List.cons_append, List.nil_append, List.append_nil]

theorem parse_eq_ok {text : String} {s : Settings} :
    parse text = .ok s ↔ (Toml.parse? text).bind ofToml? = some s ∧ s.validate = .ok () := by
  rw [parse]
  cases read : (Toml.parse? text).bind ofToml? with
  | none => exact ⟨nofun, nofun⟩
  | some s' =>
    constructor
    · intro accepted
      cases valid : s'.validate with
      | error problem =>
        simp only [valid] at accepted
        cases accepted
      | ok u =>
        simp only [valid] at accepted
        cases accepted
        exact ⟨rfl, valid⟩
    · rintro ⟨same, valid⟩
      cases same
      simp only [valid]
      rfl

/-- Settings that have been read are written, and what is written is read as the same settings. -/
theorem print_readsBack {text : String} {s : Settings} (accepted : parse text = .ok s) :
    ∃ printed, s.print = .ok printed ∧ parse printed = .ok s := by
  obtain ⟨read, valid⟩ := parse_eq_ok.mp accepted
  have printable : s.IsPrintable :=
    (yields_parse? text).bind (fun _ fits => yields_ofToml? fits) s read
  refine ⟨String.ofList (documentText s.sections), ?_, parse_eq_ok.mpr ⟨?_, valid⟩⟩
  · rw [print, print?_eq printable]
  · rw [parse?_documentText (sections_lawful printable) s.sections_nodup, Option.bind_some,
      ofToml?_sections]

/-- A host with quotes, a line end and a letter beyond ASCII, numbers in other forms, and settings
that are left out. -/
theorem print_readsBack_quotes :
    let text := "[broker]\nhost = \"it's \\\"\\\\\\n\\u00e9\"\nport = 0x1F90\n" ++
      "[conversations]\nidle_timeout_secs = 1_000\n"
    let s : Settings := ⟨⟨"it's \"\\\né", 8080, 5000, 1048576⟩, ⟨true, false⟩, ⟨some 1000, 30⟩,
      ⟨false, 8080⟩⟩
    parse text = .ok s ∧ ∃ printed, s.print = .ok printed ∧ parse printed = .ok s := by
  intro text s
  have accepted : parse text = .ok s := by
    simp only [text, s]
    rfl
  exact ⟨accepted, print_readsBack accepted⟩

end Settings

end AgentBroker
