import RoqKraken.Tools.FormBody
import RoqKraken.Gateway.RequestOrder

/-!
# Credentials and signed requests

The accounts come from a configuration file.  `Config` keeps what the reader hands it,
an `Account` takes its credentials from there, and the REST session of the account signs
every request with them.  `signed_run` follows this all the way: what the exchange gets in a
run of the gateway are requests of stages, with the credentials that the file has first
under the account's name, and they verify if the account has no passphrase.
-/

namespace RoqKraken

open FormData

/-! ## Requests as the exchange sees them -/

namespace Tools.Crypto

/-- The exchange reads the nonce in the body and signs again. -/
def verifies (signing : Signing) (path body headers : String) : Bool :=
  match (decode (bytes body)).lookup (bytes "nonce") with
  | none => false
  | some nonce =>
    headers = "API-Key: " ++ signing.key ++ "\r\nAPI-Sign: " ++
      signing.base64 (signing.mac (bytes path ++ signing.hash (nonce ++ bytes body))) ++ "\r\n"

/-- Without a passphrase the exchange reads the nonce that was signed. -/
theorem verifies_of_empty {crypto crypto' : Crypto} {realtime : Int} {body : String}
    (call : crypto.createBody realtime = some (crypto', body)) (empty : crypto.passphrase = "")
    (signing : Signing) (path : String) :
    verifies signing path body (crypto'.createHeaders signing path body) = true := by
  obtain ⟨-, -, -, rfl⟩ := createBody_eq_some.mp call
  rw [empty, verifies, decode_bodyText_empty]
  simp [createHeaders, signed]

/-- The name of the passphrase, which has its opening quote. -/
theorem decode_passphrase {passphrase : String} (single : ampersand ∉ bytes passphrase) :
    ∃ value, decode (bytes (r#""opt="# ++ passphrase ++ r#"""#)) = [(bytes r#""opt"#, value)] := by
  have name : bytes r#""opt="# = bytes r#""opt"# ++ [equals] := by decide
  have plain : ∀ byte ∈ bytes r#""opt"#, Plain byte := plain_of_all (by decide)
  have named : ∀ byte ∈ bytes r#""opt"#, decide (byte ≠ equals) = true :=
    fun byte member => decide_eq_true (plain byte member).2.1
  have whole : bytes (r#""opt="# ++ passphrase ++ r#"""#) =
      bytes r#""opt"# ++ equals :: (bytes passphrase ++ bytes r#"""#) := by
    rw [bytes_append, bytes_append, name]
    simp
  have one : ampersand ∉ bytes r#""opt"# ++ equals :: (bytes passphrase ++ bytes r#"""#) := by
    intro member
    rcases List.mem_append.mp member with member | member
    · exact (plain _ member).1 rfl
    · rcases List.mem_cons.mp member with same | member
      · cases same
      · rcases List.mem_append.mp member with member | member
        · exact single member
        · revert member
          decide
  refine ⟨unescape (bytes passphrase ++ bytes r#"""#), ?_⟩
  rw [whole, decode, List.splitOn_eq_singleton one]
  have cut : pair (bytes r#""opt"# ++ equals :: (bytes passphrase ++ bytes r#"""#)) =
      (bytes r#""opt"#, unescape (bytes passphrase ++ bytes r#"""#)) := by
    rw [pair, List.takeWhile_append_of_pos named, List.dropWhile_append_of_pos named]
    simp [unescape_plain plain]
  simp [cut]

/-- With a passphrase it finds no nonce. -/
theorem not_verifies_of_set {crypto crypto' : Crypto} {realtime : Int} {body : String}
    (call : crypto.createBody realtime = some (crypto', body)) (set : crypto.passphrase ≠ "")
    (single : ampersand ∉ bytes crypto.passphrase) (signing : Signing) (path headers : String) :
    verifies signing path body headers = false := by
  obtain ⟨-, -, -, rfl⟩ := createBody_eq_some.mp call
  obtain ⟨value, read⟩ := decode_passphrase single
  have first : (bytes "nonce" == bytes r#""nonce"#) = false := by decide
  have second : (bytes "nonce" == bytes r#""opt"#) = false := by decide
  rw [verifies, decode_bodyText_passphrase set, read, List.lookup_cons, first, List.lookup_cons,
    second]
  rfl

end Tools.Crypto

namespace Gateway

open Tools

/-! ## The configuration -/

/-- `server::config::Account`, as far as it is read. -/
structure ConfigAccount where
  name : String
  login : String
  secret : String
  password : String
  master : Bool
deriving DecidableEq

/-- What the reader hands over, one after the other. -/
inductive ConfigItem where
  | account (account : ConfigAccount)
  | requestTemplate (label : String)
  /-- Symbols, users, rate limits and unknown keys, on which no account depends. -/
  | other
deriving DecidableEq

/-- The account of an item. -/
def ConfigItem.account? : ConfigItem → Option ConfigAccount
  | .account listed => some listed
  | _ => none

/-- `Config`, as far as the accounts go: a map by name. -/
structure Configuration where
  accounts : List ConfigAccount
  masterAccount : String := ""
  nodup : (accounts.map ConfigAccount.name).Nodup

namespace Configuration

def empty : Configuration where
  accounts := []
  nodup := .nil

/-- `accounts.find`. -/
def find (config : Configuration) (name : String) : Option ConfigAccount :=
  config.accounts.find? fun account => account.name = name

/-- `accounts.emplace`: an account that is there stays. -/
def emplace (config : Configuration) (account : ConfigAccount) : Configuration :=
  if known : account.name ∈ config.accounts.map ConfigAccount.name then config
  else
    { config with
      accounts := config.accounts ++ [account]
      nodup := by
        rw [List.map_append, List.map_singleton, ← List.concat_eq_append]
        exact config.nodup.concat known }

/-- The handlers of the reader; `none` is `log::fatal`. -/
def accept (config : Configuration) : ConfigItem → Option Configuration
  | .account account =>
    let config :=
      if account.master then { config with masterAccount := account.name } else config
    some (config.emplace account)
  | .requestTemplate _ => none
  | .other => some config

/-- `parse_file`. -/
def read (items : List ConfigItem) : Option Configuration := items.foldlM accept empty

/-- `get_access_key`, and the next two; `none` is `log::fatal`. -/
def getAccessKey (config : Configuration) (name : String) : Option String :=
  (config.find name).map ConfigAccount.login

def getAccessSecret (config : Configuration) (name : String) : Option String :=
  (config.find name).map ConfigAccount.secret

def getAccessPassword (config : Configuration) (name : String) : Option String :=
  (config.find name).map ConfigAccount.password

/-- What the controller is made from. -/
def toConfig (config : Configuration) : Config := ⟨config.accounts.map ConfigAccount.name, config.nodup⟩

variable {config config' : Configuration} {items : List ConfigItem}

theorem find_isSome {name : String} :
    (config.find name).isSome ↔ name ∈ config.accounts.map ConfigAccount.name := by
  simp [find]

theorem find_emplace (config : Configuration) (account : ConfigAccount) (name : String) :
    (config.emplace account).find name =
      (config.find name).or (if account.name = name then some account else none) := by
  unfold emplace
  split
  · next known =>
    by_cases same : account.name = name
    · obtain ⟨found, here⟩ := Option.isSome_iff_exists.mp (find_isSome.mpr (same ▸ known))
      rw [here]
      rfl
    · rw [if_neg same, Option.or_none]
  · rw [find, List.find?_append, List.find?_singleton]
    simp only [decide_eq_true_eq]
    rfl

theorem find_accept {item : ConfigItem} (accepted : config.accept item = some config')
    (name : String) : config'.find name = (config.find name).or
      (item.account?.toList.find? fun account => account.name = name) := by
  cases item with
  | account account =>
    cases accepted
    rw [find_emplace]
    have same : (if account.master then { config with masterAccount := account.name }
        else config).find name = config.find name := by
      split <;> rfl
    rw [same, ConfigItem.account?, Option.toList_some, List.find?_singleton]
    simp only [decide_eq_true_eq]
  | requestTemplate label => cases accepted
  | other =>
    cases accepted
    simp [ConfigItem.account?]

/-- The first account of a name stands. -/
theorem find_read (done : read items = some config) (name : String) :
    config.find name =
      (items.filterMap ConfigItem.account?).find? fun account => account.name = name := by
  have from_ : ∀ (start : Configuration), items.foldlM accept start = some config →
      config.find name = (start.find name).or
        ((items.filterMap ConfigItem.account?).find? fun account => account.name = name) := by
    clear done
    induction items with
    | nil =>
      intro start done
      cases done
      simp
    | cons item items ih =>
      intro start done
      simp only [List.foldlM_cons, Option.bind_eq_bind, Option.bind_eq_some_iff] at done
      obtain ⟨next, first, rest⟩ := done
      rw [ih next rest, find_accept first, Option.or_assoc, ← List.find?_append]
      cases found : item.account? <;> simp [found]
  rw [from_ empty done]
  rfl

end Configuration

/-! ## Accounts -/

/-- What `tools::Crypto` computes with: SHA256, HMAC of SHA512 under a secret as its text has
it, and the text of a digest. -/
structure Primitives where
  hash : List UInt8 → List UInt8
  mac : String → List UInt8 → List UInt8
  base64 : List UInt8 → String

/-- `Crypto::Crypto`. -/
def Primitives.signing (primitives : Primitives) (key secret : String) : Crypto.Signing where
  key
  hash := primitives.hash
  mac := primitives.mac secret
  base64 := primitives.base64

structure Account where
  name : String
  crypto : Crypto
  signing : Crypto.Signing

/-- `web::rest::Request`, as far as requests differ: all are of method POST and type
`application/x-www-form-urlencoded`. -/
structure HttpRequest where
  path : String
  headers : String
  body : String
deriving DecidableEq

namespace Account

/-- The constructor. -/
def create (primitives : Primitives) (config : Configuration) (name : String) :
    Option Account := do
  let key ← config.getAccessKey name
  let secret ← config.getAccessSecret name
  let password ← config.getAccessPassword name
  some
    { name
      crypto := { passphrase := password }
      signing := primitives.signing key secret }

/-- `create_accounts`. -/
def createAll (primitives : Primitives) (config : Configuration) : Option (List Account) :=
  config.accounts.mapM fun account => create primitives config account.name

/-- What `get_token` and its like do with the account, at one reading of the clock. -/
def sign : Step Account (String × Int) HttpRequest := fun account (path, realtime) => do
  let (crypto, body) ← account.crypto.createBody realtime
  let headers := crypto.createHeaders account.signing path body
  some ({ account with crypto }, { path, headers, body })

/-- The exchange checks a request with the credentials of the account. -/
def verifies (account : Account) (request : HttpRequest) : Bool :=
  Crypto.verifies account.signing request.path request.body request.headers

variable {primitives : Primitives} {config : Configuration} {account account' : Account}

/-- The accounts of the configuration have their credentials there. -/
theorem create_of_find {name : String} {entry : ConfigAccount}
    (found : config.find name = some entry) : create primitives config name =
      some
        { name
          crypto := { passphrase := entry.password }
          signing := primitives.signing entry.login entry.secret } := by
  simp [create, Configuration.getAccessKey, Configuration.getAccessSecret,
    Configuration.getAccessPassword, found]

/-- `create_accounts` does not meet an unknown account.  No nonce is drawn yet. -/
theorem createAll_spec (primitives : Primitives) (config : Configuration) :
    ∃ accounts, createAll primitives config = some accounts ∧
      accounts.map Account.name = config.toConfig.accounts ∧
      ∀ account ∈ accounts, account.crypto.nonce = 0 := by
  have all : ∀ entries : List ConfigAccount, (∀ entry ∈ entries, entry ∈ config.accounts) →
      ∃ accounts, entries.mapM (fun entry => create primitives config entry.name) =
          some accounts ∧ accounts.map Account.name = entries.map ConfigAccount.name ∧
          ∀ account ∈ accounts, account.crypto.nonce = 0 := by
    intro entries
    induction entries with
    | nil => exact fun _ => ⟨[], rfl, rfl, by simp⟩
    | cons entry entries ih =>
      intro listed
      obtain ⟨here, later⟩ := List.forall_mem_cons.mp listed
      obtain ⟨accounts, made, names, fresh⟩ := ih later
      obtain ⟨found, known⟩ := Option.isSome_iff_exists.mp
        (Configuration.find_isSome.mpr (List.mem_map_of_mem here))
      obtain ⟨account, first, named, zero⟩ : ∃ account,
          create primitives config entry.name = some account ∧ account.name = entry.name ∧
            account.crypto.nonce = 0 :=
        ⟨_, create_of_find known, rfl, rfl⟩
      refine ⟨account :: accounts, ?_, ?_, List.forall_mem_cons.mpr ⟨zero, fresh⟩⟩
      · rw [List.mapM_cons, first, made]
        rfl
      · rw [List.map_cons, List.map_cons, named, names]
  exact all config.accounts fun _ member => member

theorem sign_eq_some {path : String} {realtime : Int} {request : HttpRequest}
    (signed : account.sign (path, realtime) = some (account', request)) :
    account.crypto.createBody realtime = some (account'.crypto, request.body) ∧
      account'.name = account.name ∧ account'.signing = account.signing ∧
      request.path = path ∧
      request.headers = account'.crypto.createHeaders account.signing path request.body := by
  simp only [sign, Option.bind_eq_bind, Option.bind_eq_some_iff] at signed
  obtain ⟨⟨crypto, body⟩, made, rest⟩ := signed
  cases rest
  exact ⟨made, rfl, rfl, rfl, rfl⟩

/-- What a run of signatures is for the exchange: requests of these paths, which verify if
and only if there is no passphrase, with nonces that do not decrease. -/
structure Accepted (account : Account) (paths : List String) (requests : List HttpRequest) :
    Prop where
  paths : requests.map HttpRequest.path = paths
  verifies : ∀ request ∈ requests,
    account.verifies request = account.crypto.passphrase.isEmpty
  nonces : ∃ nonces : List Int, nonces.Pairwise (· ≤ ·) ∧
    (∀ nonce ∈ nonces, account.crypto.nonce ≤ nonce) ∧
    requests.map HttpRequest.body = nonces.map (Crypto.bodyText account.crypto.passphrase)

theorem sign_run {calls : List (String × Int)} {log : List ((String × Int) × HttpRequest)}
    (ran : sign.run account calls = some (account', log))
    (single : FormData.ampersand ∉ FormData.bytes account.crypto.passphrase) :
    account.Accepted (calls.map Prod.fst) (log.map Prod.snd) := by
  induction calls generalizing account log with
  | nil =>
    obtain ⟨-, rfl⟩ := Step.run_nil.mp ran
    exact ⟨rfl, by simp, [], by simp⟩
  | cons call calls ih =>
    obtain ⟨next, request, rest, first, tail, rfl⟩ := Step.run_cons.mp ran
    obtain ⟨made, -, signing, path, headers⟩ := sign_eq_some first
    obtain ⟨-, passphrase, nonce, body⟩ := Crypto.createBody_eq_some.mp made
    have further : account.crypto.nonce ≤ next.crypto.nonce := by
      rw [nonce]
      split <;> omega
    obtain ⟨paths, verifies, nonces, increasing, above, bodies⟩ :=
      ih tail (by rwa [passphrase])
    refine ⟨by simp [paths, path], ?_, next.crypto.nonce :: nonces, ?_, ?_, ?_⟩
    · intro other member
      rcases List.mem_cons.mp member with rfl | later
      · rw [Account.verifies, headers, path]
        by_cases empty : account.crypto.passphrase = ""
        · rw [Crypto.verifies_of_empty made empty, empty]
          rfl
        · rw [Crypto.not_verifies_of_set made empty single]
          simpa using empty
      · have same := verifies other later
        rwa [Account.verifies, signing, passphrase] at same
    · exact List.pairwise_cons.mpr ⟨above, increasing⟩
    · intro other member
      rcases List.mem_cons.mp member with rfl | later
      · exact further
      · exact Int.le_trans further (above other later)
    · rw [List.map_cons, List.map_cons, List.map_cons, body, bodies, passphrase]

end Account

namespace System

variable {core : Symbols} {download : OrderEntry.Download2} {decoders : OrderEntry.Decoders}
  {server : Server} {settings : Settings} {config : Config} {system : System core download}
  {events : List Event} {log : List (Event × List Emitted)}

/-- The paths that the REST session of an account asks for. -/
def pathsOf (account : String) (log : List (Event × List Emitted)) : List String :=
  (OrderEntry.history (log.flatMap (orderEntryTrace account))).filterMap fun call =>
    match call.2 with
    | .request path _ _ => some path
    | _ => none

theorem pathsOf_stage
    (ran : (step decoders server settings).run (create core download config) events =
      some (system, log)) {name : String} (member : name ∈ config.accounts) {path : String}
    (listed : path ∈ pathsOf name log) :
    ∃ stage : OrderEntry.State, ∃ label, stage.request = some (path, label) := by
  obtain ⟨streamId, drawn⟩ := lookup_orderEntry_of_mem core member
  obtain ⟨session, -, own⟩ := orderEntry_run ran drawn
  obtain ⟨⟨event, effect⟩, made, asked⟩ := List.mem_filterMap.mp listed
  obtain ⟨past, later, split⟩ := List.append_of_mem made
  cases effect with
  | request other label sequence =>
    cases asked
    obtain ⟨stage, request, -⟩ :=
      (OrderEntry.ordered_run own).inOrder past _ later split path label sequence rfl
    exact ⟨stage, label, request⟩
  | _ => cases asked

/-- **Signed requests.**  A gateway that is made from a configuration file has an account for
every name in it, with the credentials that come first.  In every run the requests of the
account are requests of stages, and whatever the clock reads, they verify with these
credentials if and only if there is no passphrase; their nonces do not decrease. -/
theorem signed_run {items : List ConfigItem} {config : Configuration}
    (done : Configuration.read items = some config)
    (ran : (step decoders server settings).run (create core download config.toConfig) events =
      some (system, log))
    {name : String} {entry : ConfigAccount}
    (first : (items.filterMap ConfigItem.account?).find? (fun account => account.name = name) =
      some entry)
    (single : FormData.ampersand ∉ FormData.bytes entry.password) (primitives : Primitives) :
    ∃ account, Account.create primitives config name = some account ∧
      account.signing = primitives.signing entry.login entry.secret ∧
      (∀ path ∈ pathsOf name log, ∃ stage : OrderEntry.State, ∃ label,
        stage.request = some (path, label)) ∧
      ∀ clock after signed, clock.length = (pathsOf name log).length →
        Account.sign.run account ((pathsOf name log).zip clock) = some (after, signed) →
          (signed.map fun call => call.2.path) = pathsOf name log ∧
          (∀ call ∈ signed, account.verifies call.2 = entry.password.isEmpty) ∧
          ∃ nonces : List Int, nonces.Pairwise (· ≤ ·) ∧
            (signed.map fun call => call.2.body) =
              nonces.map (Crypto.bodyText entry.password) := by
  have found := (Configuration.find_read done name).trans first
  have member : name ∈ config.toConfig.accounts :=
    Configuration.find_isSome.mp (Option.isSome_iff_exists.mpr ⟨entry, found⟩)
  refine ⟨_, Account.create_of_find found, rfl, ?_, ?_⟩
  · intro path listed
    exact pathsOf_stage ran member listed
  · intro clock after signed length signs
    obtain ⟨paths, verifies, nonces, increasing, -, bodies⟩ := Account.sign_run signs single
    refine ⟨?_, fun call listed => ?_, nonces, increasing, ?_⟩
    · rw [← List.map_fst_zip (Nat.le_of_eq length.symm), ← paths, List.map_map]
      rfl
    · exact verifies call.2 (List.mem_map_of_mem listed)
    · rw [← bodies, List.map_map]
      rfl

/-- A file with two entries of one name. -/
def twoEntries : List ConfigItem :=
  [.other,
    .account ⟨"A1", "key-1", "secret-1", "", false⟩,
    .account ⟨"A1", "key-2", "secret-2", "", true⟩]

theorem signed_run_twoEntries :
    ∃ (config : Configuration)
      (system : System (Symbols.chunked 128 (by decide)) OrderEntry.countingDownload)
      (log : List (Event × List Emitted)), Configuration.read twoEntries = some config ∧
      (step OrderEntry.sampleDecoders ⟨255, fun _ => false⟩ {}).run (create _ _ config.toConfig)
        signIn = some (system, log) ∧
      ∀ primitives, ∃ account, Account.create primitives config "A1" = some account ∧
        account.signing = primitives.signing "key-1" "secret-1" ∧
        (∀ path ∈ pathsOf "A1" log, ∃ stage : OrderEntry.State, ∃ label,
          stage.request = some (path, label)) ∧
        ∀ clock after signed, clock.length = (pathsOf "A1" log).length →
          Account.sign.run account ((pathsOf "A1" log).zip clock) = some (after, signed) →
            (signed.map fun call => call.2.path) = pathsOf "A1" log ∧
            (∀ call ∈ signed, account.verifies call.2 = "".isEmpty) ∧
            ∃ nonces : List Int, nonces.Pairwise (· ≤ ·) ∧
              (signed.map fun call => call.2.body) = nonces.map (Crypto.bodyText "") := by
  refine ⟨_, _, _, rfl, rfl, fun primitives => ?_⟩
  exact @signed_run (Symbols.chunked 128 (by decide)) OrderEntry.countingDownload
    OrderEntry.sampleDecoders ⟨255, fun _ => false⟩ {} _ signIn _ twoEntries _ rfl rfl "A1"
    ⟨"A1", "key-1", "secret-1", "", false⟩ (by decide) (by decide) primitives

end System

end Gateway

end RoqKraken
