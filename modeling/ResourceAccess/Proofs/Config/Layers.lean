import Mathlib
import ResourceAccess.Config.Load
import ResourceAccess.Proofs.Config.Document
import ResourceAccess.Proofs.Config.Environment

/-!
# The layers of the configuration

The configuration is taken from a merge of the document and the variables.  Each of its four keys is decided alone: by
the variable that is called for it, or else by the document, or else by the default.  What decides must fit the key, and
what it hides need not.

* `Config.Key.winner?`: which setting decides
* `Config.Key.Fits`, `Config.Key.Says`: what it must be, and what it says
* `Config.ofSetting_ok_iff`: the keys of one table are decided one by one
* `Config.load_ok_iff`: so are those of all layers
* `Config.load_resolves`: **all there is to say about loading**
-/

namespace ResourceAccess

open Setting (Clear Alike Apart)

/-! ## The keys -/

namespace Setting

/-- The setting is the whole number, with or without a sign. -/
inductive Whole : Setting → Nat → Prop
  | signed (n : Nat) : Whole (.signed n) n
  | unsigned (n : Nat) : Whole (.unsigned n) n

theorem Whole.not_table {n : Nat} {entries : List (String × Setting)} : ¬ Whole (.table entries) n := nofun

end Setting

namespace Config

/-- The keys of the configuration. -/
inductive Key where
  | path
  | maxConnections
  | operationTimeoutMs
  | logFilter
deriving DecidableEq

namespace Key

def keys : Key → List String
  | .path => ["database", "path"]
  | .maxConnections => ["database", "max_connections"]
  | .operationTimeoutMs => ["database", "operation_timeout_ms"]
  | .logFilter => ["log_filter"]

/-- The setting is what the key asks for: a text, or a whole number within the bounds. -/
def Fits (s : Setting) : Key → Prop
  | .path | .logFilter => ∃ text, s = .text text
  | .maxConnections => ∃ n, s.Whole n ∧ n < Nat.pow 2 32
  | .operationTimeoutMs => ∃ n, s.Whole n ∧ n < Nat.pow 2 64

/-- The configuration has for the key what the setting says. -/
def Says (s : Setting) (config : Config) : Key → Prop
  | .path => ∃ text, s = .text text ∧ config.database.path = some text
  | .maxConnections => s.Whole config.database.maxConnections ∧ config.database.maxConnections < Nat.pow 2 32
  | .operationTimeoutMs => ∃ n, (s.Whole n ∧ n < Nat.pow 2 64) ∧ config.database.operationTimeoutMs = some n
  | .logFilter => s = .text config.logFilter

/-- Two configurations have the same for the key. -/
def Agrees (a b : Config) : Key → Prop
  | .path => a.database.path = b.database.path
  | .maxConnections => a.database.maxConnections = b.database.maxConnections
  | .operationTimeoutMs => a.database.operationTimeoutMs = b.database.operationTimeoutMs
  | .logFilter => a.logFilter = b.logFilter

/-- The configuration has for the key what the setting says, or the default where there is no setting. -/
def Follows (config : Config) (key : Key) : Option Setting → Prop
  | none => key.Agrees config {}
  | some s => key.Says s config

/-- Which setting decides: what the variables give for the key, or else what the document has. -/
def winner? (key : Key) (document : Setting) (environment : Environment.Variables) : Option Setting :=
  (Environment.given? key.keys environment).or (document.findAt? key.keys)

variable {key : Key} {s : Setting} {a b config : Config} {setting : Option Setting}

theorem fits_of_says (h : key.Says s config) : key.Fits s := by
  cases key with
  | path =>
    obtain ⟨text, htext, -⟩ := h
    exact ⟨text, htext⟩
  | maxConnections => exact ⟨_, h⟩
  | operationTimeoutMs =>
    obtain ⟨n, hn, -⟩ := h
    exact ⟨n, hn⟩
  | logFilter => exact ⟨_, h⟩

theorem exists_says (h : key.Fits s) : ∃ config, key.Says s config := by
  cases key with
  | path =>
    obtain ⟨text, rfl⟩ := h
    exact ⟨{ database := { path := some text } }, text, rfl, rfl⟩
  | maxConnections =>
    obtain ⟨n, hn⟩ := h
    exact ⟨{ database := { maxConnections := n } }, hn⟩
  | operationTimeoutMs =>
    obtain ⟨n, hn⟩ := h
    exact ⟨{ database := { operationTimeoutMs := some n } }, n, hn, rfl⟩
  | logFilter =>
    obtain ⟨text, rfl⟩ := h
    exact ⟨{ logFilter := text }, rfl⟩

/-- What a configuration has for one key is all that matters for that key. -/
theorem follows_of_agrees (hagrees : key.Agrees a b) (h : key.Follows b setting) : key.Follows a setting := by
  cases setting with
  | none => cases key <;> exact Eq.trans hagrees h
  | some s =>
    cases key with
    | path =>
      obtain ⟨text, htext, hpath⟩ := h
      exact ⟨text, htext, hagrees.trans hpath⟩
    | maxConnections =>
      rw [Agrees] at hagrees
      rwa [Follows, Says, hagrees]
    | operationTimeoutMs =>
      obtain ⟨n, hn, htimeout⟩ := h
      exact ⟨n, hn, hagrees.trans htimeout⟩
    | logFilter =>
      rw [Agrees] at hagrees
      rwa [Follows, Says, hagrees]

end Key

/-! ## Fitting -/

section Fitting

variable {config : Config} {setting : Option Setting} {keys : List String} {s : Setting} {n : Nat}
  {entries : List (String × Setting)}

theorem bind_ok_iff {α β : Type} {x : Fitted α} {f : α → Fitted β} {b : β} :
    (x >>= f) = .ok b ↔ ∃ a, x = .ok a ∧ f a = .ok b := by
  cases x <;> simp [bind, Except.bind]

/-- A whole number is taken as it is, or refused. -/
theorem natural_ok_iff {bound : Nat} {expected : String} :
    natural bound expected keys s = .ok n ↔ s.Whole n ∧ n < bound := by
  have hchecked : ∀ m : Int, (if 0 ≤ m && m < bound then (Except.ok m.toNat : Fitted Nat)
      else .error (.badKey keys (.invalidValue s expected))) = .ok n ↔ m = n ∧ n < bound := by
    intro m
    split
    · rename_i hbounds
      simp only [Bool.and_eq_true, decide_eq_true_eq] at hbounds
      simp only [Except.ok.injEq]
      omega
    · rename_i hbounds
      simp only [Bool.and_eq_true, decide_eq_true_eq] at hbounds
      simp only [reduceCtorEq, false_iff]
      omega
  cases s with
  | signed m =>
    rw [natural, hchecked m]
    refine and_congr_left fun _ => ⟨?_, ?_⟩
    · rintro rfl
      exact .signed n
    · rintro ⟨⟩
      rfl
  | unsigned m =>
    rw [natural, hchecked m, Int.natCast_inj]
    refine and_congr_left fun _ => ⟨?_, ?_⟩
    · rintro rfl
      exact .unsigned m
    · rintro ⟨⟩
      rfl
  | _ => exact iff_of_false (by simp [natural]) fun h => nomatch h.1

theorem word_ok_iff {text : String} : word keys s = .ok text ↔ s = .text text := by
  cases s <;> simp [word]

theorem pathOf_ok_iff : pathOf keys setting = .ok config.database.path ↔ Key.path.Follows config setting := by
  cases setting with
  | none => exact ⟨fun h => (Except.ok.inj h).symm, fun h => congrArg Except.ok h.symm⟩
  | some s =>
    cases s with
    | text text => simp [pathOf, orDefault, word, Except.map, Key.Follows, Key.Says, eq_comm]
    | _ => simp [pathOf, orDefault, word, Except.map, Key.Follows, Key.Says]

theorem connectionsOf_ok_iff :
    connectionsOf keys setting = .ok config.database.maxConnections ↔ Key.maxConnections.Follows config setting := by
  cases setting with
  | none => exact ⟨fun h => (Except.ok.inj h).symm, fun h => congrArg Except.ok h.symm⟩
  | some s => exact natural_ok_iff

theorem timeoutOf_ok_iff : timeoutOf keys setting = .ok config.database.operationTimeoutMs ↔
    Key.operationTimeoutMs.Follows config setting := by
  cases setting with
  | none => exact ⟨fun h => (Except.ok.inj h).symm, fun h => congrArg Except.ok h.symm⟩
  | some s =>
    have hmap : timeoutOf keys (some s) = (natural (Nat.pow 2 64) "u64" keys s).map some := rfl
    rw [hmap, Key.Follows, Key.Says]
    cases hnatural : natural (Nat.pow 2 64) "u64" keys s with
    | error error =>
      refine iff_of_false (by simp [Except.map]) ?_
      rintro ⟨n, hn, -⟩
      rw [natural_ok_iff.mpr hn] at hnatural
      exact absurd hnatural (by simp)
    | ok n =>
      constructor
      · intro h
        exact ⟨n, natural_ok_iff.mp hnatural, (Except.ok.inj h).symm⟩
      · rintro ⟨m, hm, htimeout⟩
        rw [natural_ok_iff.mpr hm] at hnatural
        rw [htimeout, Except.ok.inj hnatural]
        rfl

theorem logFilterOf_ok_iff : orDefault "rbacd=info" (word keys) setting = .ok config.logFilter ↔
    Key.logFilter.Follows config setting := by
  cases setting with
  | none => exact ⟨fun h => (Except.ok.inj h).symm, fun h => congrArg Except.ok h.symm⟩
  | some s => exact word_ok_iff

theorem databaseOf_ok_iff : databaseOf (.table entries) = .ok config.database ↔
    Key.path.Follows config (entries.lookup "path") ∧
      Key.maxConnections.Follows config (entries.lookup "max_connections") ∧
      Key.operationTimeoutMs.Follows config (entries.lookup "operation_timeout_ms") := by
  simp only [databaseOf, bind_ok_iff]
  constructor
  · rintro ⟨connections, hconnections, timeout, htimeout, path, hpath, hall⟩
    obtain ⟨database, logFilter⟩ := config
    obtain rfl : _ = database := Except.ok.inj hall
    exact ⟨pathOf_ok_iff.mp hpath, connectionsOf_ok_iff.mp hconnections, timeoutOf_ok_iff.mp htimeout⟩
  · rintro ⟨hpath, hconnections, htimeout⟩
    exact ⟨_, connectionsOf_ok_iff.mpr hconnections, _, timeoutOf_ok_iff.mpr htimeout, _, pathOf_ok_iff.mpr hpath, rfl⟩

/-- Without a database's part all its keys have their defaults. -/
theorem database_eq_default_iff : config.database = {} ↔
    Key.path.Follows config none ∧ Key.maxConnections.Follows config none ∧
      Key.operationTimeoutMs.Follows config none := by
  obtain ⟨⟨path, connections, timeout⟩, logFilter⟩ := config
  exact Iff.of_eq (DatabaseConfig.mk.injEq ..)

/-- The keys are decided one by one, if the database's part is a table. -/
theorem ofSetting_ok_iff (htable : ∀ inner, s.find? "database" = some inner → inner.IsTable) :
    ofSetting s = .ok config ↔ ∀ key : Key, key.Follows config (s.findAt? key.keys) := by
  have hdatabase : orDefault {} databaseOf (s.find? "database") = .ok config.database ↔
      Key.path.Follows config (s.findAt? Key.path.keys) ∧
        Key.maxConnections.Follows config (s.findAt? Key.maxConnections.keys) ∧
        Key.operationTimeoutMs.Follows config (s.findAt? Key.operationTimeoutMs.keys) := by
    simp only [Key.keys, Setting.findAt_pair]
    cases hfind : s.find? "database" with
    | none =>
      rw [orDefault, Except.ok.injEq, eq_comm]
      exact database_eq_default_iff
    | some inner =>
      obtain ⟨entries, rfl⟩ := htable inner hfind
      exact databaseOf_ok_iff
  have hall : ofSetting s = .ok config ↔ orDefault {} databaseOf (s.find? "database") = .ok config.database ∧
      orDefault "rbacd=info" (word ["log_filter"]) (s.find? "log_filter") = .ok config.logFilter := by
    simp only [ofSetting, bind_ok_iff]
    constructor
    · rintro ⟨database, hfirst, logFilter, hsecond, h⟩
      obtain rfl := Except.ok.inj h
      exact ⟨hfirst, hsecond⟩
    · rintro ⟨hfirst, hsecond⟩
      exact ⟨_, hfirst, _, hsecond, rfl⟩
  rw [hall, hdatabase, logFilterOf_ok_iff, ← Setting.findAt_singleton]
  constructor
  · rintro ⟨⟨hpath, hconnections, htimeout⟩, hfilter⟩ key
    cases key <;> assumption
  · intro h
    exact ⟨⟨h .path, h .maxConnections, h .operationTimeoutMs⟩, h .logFilter⟩

end Fitting

/-! ## Loading -/

/-- No variable is called for the whole of `database`, or for something below one of the four keys. -/
structure Orderly (environment : Environment.Variables) : Prop where
  database : ∀ entry ∈ environment, Environment.keysOf? entry.1 ≠ some ["database"]
  below : ∀ entry ∈ environment, ∀ path, Environment.keysOf? entry.1 = some path →
    ∀ key : Key, key.keys <+: path → path = key.keys

section Loading

variable {config : Config} {document : Option String} {below : Setting} {environment : Environment.Variables}

/-- There is only `database` on the way to a key. -/
theorem Key.le_keys {key : Key} {path : List String} (h : path <+: key.keys) :
    path = [] ∨ path = ["database"] ∨ path = key.keys := by
  cases key with
  | logFilter =>
    simp only [Key.keys, List.prefix_cons_iff, List.prefix_nil] at h
    rcases h with rfl | ⟨_, rfl, rfl⟩
    · exact Or.inl rfl
    · exact Or.inr (Or.inr rfl)
  | _ =>
    simp only [Key.keys, List.prefix_cons_iff, List.prefix_nil] at h
    rcases h with rfl | ⟨_, rfl, rfl | ⟨_, rfl, rfl⟩⟩
    · exact Or.inl rfl
    · exact Or.inr (Or.inl rfl)
    · exact Or.inr (Or.inr rfl)

/-- Variables that are all called for one of the four keys are in order. -/
theorem orderly_of_keys (h : ∀ entry ∈ environment, ∃ key : Key, Environment.keysOf? entry.1 = some key.keys) :
    Orderly environment where
  database entry hentry hdatabase := by
    obtain ⟨key, hkey⟩ := h entry hentry
    rw [hdatabase, Option.some.injEq] at hkey
    cases key <;> exact absurd hkey (by decide)
  below entry hentry path hpath key hle := by
    obtain ⟨other, hother⟩ := h entry hentry
    obtain rfl : path = other.keys := Option.some.inj (hpath.symm.trans hother)
    revert hle
    cases key <;> cases other <;> decide

theorem Orderly.apart (h : Orderly environment) (key : Key) : ∀ entry ∈ environment, ∀ path,
    Environment.keysOf? entry.1 = some path → Apart path key.keys := by
  intro entry hentry path hpath
  refine ⟨fun hle => ?_, h.below entry hentry path hpath key⟩
  rcases Key.le_keys hle with rfl | rfl | hkeys
  · exact absurd hpath (Environment.keysOf_ne_nil entry.1)
  · exact absurd hpath (h.database entry hentry)
  · exact hkeys

/-- What stands in a table is no matter for a key, for no key takes one. -/
theorem Key.follows_congr {key : Key} {a b : Option Setting} (h : Alike a b) :
    key.Follows config a ↔ key.Follows config b := by
  rcases h with rfl | ⟨x, y, rfl, rfl⟩
  · rfl
  · have hnever : ∀ entries, ¬ key.Says (.table entries) config := by
      intro entries
      cases key <;> simp [Key.Says, Setting.Whole.not_table]
    exact iff_of_false (hnever x) (hnever y)

/-- **The configuration has for each key what the deciding setting says.** -/
theorem load_ok_iff (hlayer : Document.layer? document = some below)
    (htable : ∀ inner, below.find? "database" = some inner → inner.IsTable) (horderly : Orderly environment) :
    load document environment = .ok config ↔ ∀ key : Key, key.Follows config (key.winner? below environment) := by
  have hsetting : ∀ key : Key, Clear key.keys (Environment.setting environment) ∧
      Alike ((Environment.setting environment).findAt? key.keys) (Environment.given? key.keys environment) :=
    fun key => Environment.findAt_setting (horderly.apart key) (by cases key <;> simp [Key.keys])
  obtain ⟨entries, hentries, hdistinct, hinner⟩ := (hsetting .path).1
  have hload : load document environment = ofSetting (below.merge (Environment.setting environment)) := by
    cases document with
    | none =>
      obtain rfl := Option.some.inj hlayer
      rw [load, hentries, Setting.merge_nil hdistinct]
    | some text =>
      have hsettings : Document.settings? text = some below := hlayer
      rw [load, hsettings]
  have hdatabase : ∀ inner, (below.merge (Environment.setting environment)).find? "database" = some inner →
      inner.IsTable := by
    intro inner h
    refine Setting.isTable_find_merge ⟨entries, hentries, hdistinct, fun _ _ => trivial⟩ htable ?_ h
    intro upper hupper
    rw [hentries] at hupper
    obtain ⟨x, hx, -⟩ := hinner upper hupper
    exact ⟨x, hx⟩
  rw [hload, ofSetting_ok_iff hdatabase]
  refine forall_congr' fun key => Key.follows_congr ?_
  exact (Setting.findAt_merge (hsetting key).1).trans ((hsetting key).2.or (Alike.refl _))

/-- Each key has a setting that fits it or its default, and so a configuration has all of them. -/
theorem exists_follows_iff {winner : Key → Option Setting} :
    (∃ config : Config, ∀ key : Key, key.Follows config (winner key)) ↔
      ∀ (key : Key) s, winner key = some s → key.Fits s := by
  constructor
  · rintro ⟨config, h⟩ key s hs
    have hfollows := h key
    rw [hs] at hfollows
    exact Key.fits_of_says hfollows
  · intro h
    have hone : ∀ key : Key, ∃ config : Config, key.Follows config (winner key) := by
      intro key
      cases hs : winner key with
      | none => exact ⟨{}, by cases key <;> rfl⟩
      | some s => exact Key.exists_says (h key s hs)
    choose config hconfig using hone
    refine ⟨⟨⟨(config .path).database.path, (config .maxConnections).database.maxConnections,
      (config .operationTimeoutMs).database.operationTimeoutMs⟩, (config .logFilter).logFilter⟩, fun key => ?_⟩
    refine Key.follows_of_agrees ?_ (hconfig key)
    cases key <;> rfl

end Loading

/-- Without variables of ours a document is loaded as it is. -/
theorem ofToml_eq_load {environment : Environment.Variables}
    (hforeign : ∀ entry ∈ environment, Environment.keysOf? entry.1 = none) (text : String) :
    ofToml text = load (some text) environment := by
  rw [ofToml, load, Environment.setting_of_foreign hforeign]
  cases hsettings : Document.settings? text with
  | none => rfl
  | some s =>
    -- nothing is merged into the document's table
    obtain ⟨entries, rfl⟩ := Document.settings_eq_some hsettings
    rfl

/-- **Each key is decided alone: by its variable, or else by the document, or else by the default.**  A configuration is
loaded exactly if what decides fits each key, and it says what decides.  Whatever else the layers hold has no influence.
A variable's decimal number is never cut short, for beyond 64 bits it is a text.  A document that is not well formed or
in which a table names a source is refused.  In others a table with the key for it stands for the value under that key,
and what is plain means itself. -/
theorem load_resolves {document : Option String} {below : Setting} {environment : Environment.Variables}
    (hlayer : Document.layer? document = some below)
    (htable : ∀ inner, below.find? "database" = some inner → inner.IsTable) (horderly : Orderly environment) :
    -- what is loaded, and when
    (∀ config, load document environment = .ok config ↔
      ∀ key : Key, key.Follows config (key.winner? below environment)) ∧
    ((∃ config, load document environment = .ok config) ↔
      ∀ (key : Key) s, key.winner? below environment = some s → key.Fits s) ∧
    -- what decides a key
    (∀ (key : Key) name text, (name, text) ∈ environment → Environment.keysOf? name = some key.keys →
      (∀ entry ∈ environment, Environment.keysOf? entry.1 = some key.keys → entry = (name, text)) →
      key.winner? below environment = some (Environment.valueOf text)) ∧
    (∀ key : Key, (∀ entry ∈ environment, Environment.keysOf? entry.1 ≠ some key.keys) →
      key.winner? below environment = below.findAt? key.keys) ∧
    (∀ n : Nat, Environment.valueOf (toString n) = if n < Nat.pow 2 64 then .unsigned n else .text (toString n)) ∧
    -- what has no influence
    (∀ document' below' environment', Document.layer? document' = some below' →
      (∀ inner, below'.find? "database" = some inner → inner.IsTable) → Orderly environment' →
      (∀ key : Key, key.winner? below' environment' = key.winner? below environment) →
      ∀ config, load document' environment' = .ok config ↔ load document environment = .ok config) ∧
    -- documents
    (∀ text, (Document.settings? text = none ↔ Toml.parse text = none ∨
        ∃ entries, Toml.parse text = some (.table entries) ∧ Document.anyNamesSource entries = true) ∧
      (Document.settings? text = none → ∀ environment', load (some text) environment' = .error .malformed) ∧
      (∀ entries, Toml.parse text = some (.table entries) → Document.anyNamesSource entries = false →
        ∃ found, Document.settings? text = some (.table found) ∧
          ∀ key, found.lookup key = (entries.lookup key).bind Document.meaning?) ∧
      ∀ environment', (∀ entry ∈ environment', Environment.keysOf? entry.1 = none) →
        ofToml text = load (some text) environment') ∧
    (∀ s, Document.isPlain s = true → Document.meaning? s = some s) ∧
    (∀ entries, Document.namesSource (.table entries) = false →
      (∀ value, entries.lookup Document.valueKey = some value →
        Document.meaning? (.table entries) = Document.meaning? value) ∧
      (entries.lookup Document.valueKey = none → ∃ found, Document.meaning? (.table entries) = some (.table found) ∧
        ∀ key, found.lookup key = (entries.lookup key).bind Document.meaning?)) ∧
    -- the limit of an operation
    ∀ config : DatabaseConfig,
      (config.operationTimeout = none ↔ config.operationTimeoutMs = none ∨ config.operationTimeoutMs = some 0) ∧
      ∀ ms, 0 < ms → config.operationTimeoutMs = some ms → config.operationTimeout = some ⟨ms * 1000000⟩ := by
  refine ⟨fun config => load_ok_iff hlayer htable horderly, ?_, ?_, ?_, Environment.valueOf_decimal, ?_, ?_,
    Document.meaning_of_plain, ?_, ?_⟩
  · simp only [load_ok_iff hlayer htable horderly]
    exact exists_follows_iff
  · intro key name text hmem hname hunique
    rw [Key.winner?, Environment.given_of_unique hmem hname hunique]
    rfl
  · intro key hnone
    rw [Key.winner?, Environment.given_of_none hnone, Option.none_or]
  · intro document' below' environment' hlayer' htable' horderly' hwinner config
    rw [load_ok_iff hlayer htable horderly, load_ok_iff hlayer' htable' horderly']
    simp only [hwinner]
  · intro text
    refine ⟨Document.settings_eq_none_iff, fun hnone environment' => ?_, fun entries => Document.settings_of_no_source,
      fun environment' hforeign => ofToml_eq_load hforeign text⟩
    rw [load, hnone]
  · exact fun entries hsource => ⟨fun value hvalue => Document.meaning_of_value hvalue hsource,
      fun hvalue => Document.meaning_of_table hvalue hsource⟩
  · rintro ⟨path, connections, timeout⟩
    constructor
    · rcases timeout with _ | _ | ms <;> simp [DatabaseConfig.operationTimeout]
    · rintro ms hms rfl
      simp [DatabaseConfig.operationTimeout, hms, Duration.ofMilliseconds]

/-- A variable hides what is wrong in the document, and leaves the keys next to its own alone. -/
theorem load_resolves_hidden :
    load (some "log_filter = 5\n[database]\nmax_connections = 3")
      [("RBACD_LOG_FILTER", "debug"), ("RBACD_DATABASE__PATH", "/rbac.db")] =
        .ok { database := { path := some "/rbac.db", maxConnections := 3 }, logFilter := "debug" } := by
  have hparse : Toml.parse "log_filter = 5\n[database]\nmax_connections = 3" =
      some (.table [("log_filter", .signed 5), ("database", .table [("max_connections", .signed 3)])]) := by cbv
  have hlayer : Document.layer? (some "log_filter = 5\n[database]\nmax_connections = 3") =
      some (.table [("log_filter", .signed 5), ("database", .table [("max_connections", .signed 3)])]) :=
    Document.settings_of_plain hparse (by decide +kernel)
  have hfilter : Environment.keysOf? "RBACD_LOG_FILTER" = some ["log_filter"] := by decide +kernel
  have hpath : Environment.keysOf? "RBACD_DATABASE__PATH" = some ["database", "path"] := by decide +kernel
  have horderly : Orderly [("RBACD_LOG_FILTER", "debug"), ("RBACD_DATABASE__PATH", "/rbac.db")] :=
    orderly_of_keys (by simpa using ⟨⟨.logFilter, hfilter⟩, ⟨.path, hpath⟩⟩)
  have htable : ∀ inner, (Setting.table [("log_filter", .signed 5),
      ("database", .table [("max_connections", .signed 3)])]).find? "database" = some inner → inner.IsTable := by
    rintro inner ⟨⟩
    exact ⟨_, rfl⟩
  obtain ⟨hload, -, hgiven, hdocument, -⟩ := load_resolves hlayer htable horderly
  rw [hload]
  intro key
  cases key with
  | path =>
    rw [hgiven .path "RBACD_DATABASE__PATH" "/rbac.db" (by simp) hpath (by simp [hfilter, hpath, Key.keys])]
    exact ⟨"/rbac.db", by cbv, rfl⟩
  | maxConnections =>
    rw [hdocument .maxConnections (by simp [hfilter, hpath, Key.keys])]
    exact ⟨.signed 3, by decide⟩
  | operationTimeoutMs =>
    rw [hdocument .operationTimeoutMs (by simp [hfilter, hpath, Key.keys])]
    rfl
  | logFilter =>
    rw [hgiven .logFilter "RBACD_LOG_FILTER" "debug" (by simp) hfilter (by simp [hfilter, hpath, Key.keys])]
    exact (by cbv : Environment.valueOf "debug" = .text "debug")

/-- A document is refused for a key that is none of ours, and a variable in brackets is no plain text. -/
theorem load_not_plain :
    Toml.parse "x.___figment_value_id = 1" = some (.table [("x", .table [("___figment_value_id", .signed 1)])]) ∧
    load (some "x.___figment_value_id = 1") [] = .error .malformed ∧
    Orderly [("RBACD_LOG_FILTER", "[debug]")] ∧
    Environment.valueOf "[debug]" = .sequence [.text "debug"] ∧
    ∀ config, load none [("RBACD_LOG_FILTER", "[debug]")] ≠ .ok config := by
  have hfilter : Environment.keysOf? "RBACD_LOG_FILTER" = some Key.logFilter.keys := by decide +kernel
  refine ⟨by cbv, by cbv, orderly_of_keys (by simpa using ⟨.logFilter, hfilter⟩), by cbv, fun config hload => ?_⟩
  have hfails : (load none [("RBACD_LOG_FILTER", "[debug]")]).isOk = false := by decide +kernel
  rw [hload] at hfails
  exact absurd hfails (by simp [Except.isOk, Except.toBool])

end Config

end ResourceAccess
