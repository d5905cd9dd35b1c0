import SMEWindow.Client.FirstChance
import SMEWindow.Collect.FileName
import SMEWindow.Server.HeaderExchange

/-!
# What a client was told, and where its reports go

An application tells `SMEClient` its api key and the address of the server. The
constructor keeps them in static fields and hands the key to the breakpad
wrapper, which keeps it in a global. From there two paths lead to a `TCPSender`:
the three handlers of managed exceptions, which go through a collector, and the
callback of breakpad. Each path has a constant where it should have a part of
the configuration: the collector sends the key 10, and the callback connects to
port 3000 of the same machine.

## Main definitions

* `Client.smeClient` — the constructors of `SMEClient`
* `Client.reported` — the sender that an error creates
* `Client.SentAs` — a report goes to a server under a key, and is inserted under
  that key

## Main results

* `sentAs_iff` — which reports go where the configuration says
-/

set_option autoImplicit false

namespace SMEWindow.Client

open Collect Lib.Text NetLib Server

/-- What an application passes to `SMEClient`. -/
structure Configuration where
  proname : Option String
  proversion : Option Version
  iscatchne : Bool
  iscatchhe : Bool
  APIKey : String
  /-- `serverip` and `serverport`, for the constructor that takes them. -/
  server : Option (String × Int32)

/-- The static fields of `SMEClient` and the state of the breakpad wrapper. -/
structure Statics extends SMEClient where
  ProjectInfo : ProjectInformation
  IsCatchNE : Bool
  ServerIP : String
  ServerPort : Int32
  APIKEY : String
  /-- The wrapper exists, and its callback is installed. -/
  m_Wrapper : Bool
  g_APIKey : Int32

/-- The constructor of the wrapper that takes a key alone. -/
def breakpadWrapper (apikey : Int32) (s : Statics) : Statics :=
  { s with m_Wrapper := true, g_APIKey := apikey }

/-- `Initialize`. The key is parsed only for the wrapper. -/
def initializeClient (s : Statics) : Except RuntimeException Statics :=
  if s.IsCatchNE then (parseInt s.APIKEY).map fun apikey => breakpadWrapper apikey s
  else .ok s

/-- Both constructors of `SMEClient`: without a server nothing is sent. -/
def smeClient (config : Configuration) : Except RuntimeException Statics :=
  initializeClient {
    IsCatchHE := config.iscatchhe
    IsSend := config.server.isSome
    ProjectInfo := .ofNameVersion config.proname config.proversion
    IsCatchNE := config.iscatchne
    ServerIP := (config.server.map Prod.fst).getD ""
    ServerPort := (config.server.map Prod.snd).getD (-1)
    APIKEY := config.APIKey
    m_Wrapper := false
    g_APIKey := -1 }

/-! ### Errors -/

/-- The handlers of managed exceptions. -/
inductive Handler
  | unhandledException | firstChanceException | threadException
  deriving DecidableEq, Repr

/-- An error of the application. -/
inductive Occurrence
  /-- The handler that is run, and the moment at which it collects. -/
  | managed (handler : Handler) (time : DateTime)
  /-- The arguments that breakpad gives to its callback. -/
  | native (dump_path minidump_id : String)
  deriving DecidableEq, Repr

/-- The arguments of a `TCPSender`. -/
structure Connection where
  ipAddress : String
  port : Int32
  FilePath : String
  FileName : String
  apikey : Int32
  deriving DecidableEq, Repr

/-- `SMECollector.SendToServer`, once the report has been saved. -/
def sendToServer (XMLFileName ServerIP : String) (ServerPort : Int32) : Connection :=
  ⟨ServerIP, ServerPort, xmlFilePath XMLFileName, XMLFileName, 10⟩

/-- The callback of breakpad. -/
def resultCallBack (s : Statics) (dump_path minidump_id : String) : Connection :=
  ⟨"127.0.0.1", 3000, dump_path ++ (minidump_id ++ ".dmp"), minidump_id ++ ".dmp", s.g_APIKey⟩

/-- The handler has been added to its event. -/
def Handler.installed (s : Statics) : Handler → Bool
  | .unhandledException | .threadException => true
  | .firstChanceException => s.IsCatchHE

/-- The sender that an error creates. -/
def reported (toShortDateString : Date → String) (s : Statics) : Occurrence → Option Connection
  | .managed handler time =>
    if handler.installed s && s.IsSend then
      match dateToFileName toShortDateString s.ProjectInfo time with
      | .ok XMLFileName => some (sendToServer XMLFileName s.ServerIP s.ServerPort)
      -- the report is never saved, and the handler waits for it
      | .error _ => none
    else none
  | .native dump_path minidump_id =>
    if s.m_Wrapper then some (resultCallBack s dump_path minidump_id) else none

/-- A client that was constructed so reports the error in this way. -/
def Reports (toShortDateString : Date → String) (config : Configuration)
    (occurrence : Occurrence) (connection : Connection) : Prop :=
  ∃ s, smeClient config = .ok s ∧ reported toShortDateString s occurrence = some connection

/-- The report goes to this server with this key, and if its header is not cut on
the way, a row that the server inserts for it has the key as its project. -/
structure SentAs (server : String × Int32) (k : Int32) (connection : Connection) : Prop where
  server_eq : (connection.ipAddress, connection.port) = server
  apikey_eq : connection.apikey = k
  projectid_eq : ∀ request : Request, request.FileName = connection.FileName →
    request.apikey = connection.apikey → ∀ env cut insertion, HeaderUncut request cut →
      Reaches env (wire request cut) insertion → insertion.projectid = k

/-- The configuration agrees with the constant on the path of the error. -/
def Occurrence.AgreesWith (server : String × Int32) (k : Int32) : Occurrence → Prop
  | .managed _ _ => k = 10
  | .native _ _ => server = ("127.0.0.1", 3000)

/-! ### The two paths -/

variable {toShortDateString : Date → String} {config : Configuration} {s : Statics}
  {server : String × Int32} {k : Int32} {connection : Connection}

/-- The server inserts whatever key was sent. -/
theorem sentAs_iff_eq :
    SentAs server k connection ↔
      (connection.ipAddress, connection.port) = server ∧ connection.apikey = k := by
  constructor
  · intro h
    exact ⟨h.server_eq, h.apikey_eq⟩
  · rintro ⟨hserver, hkey⟩
    refine ⟨hserver, hkey, fun request _ hrequest env cut insertion huncut hreaches => ?_⟩
    rw [projectid_of_headerUncut huncut hreaches, hrequest, hkey]

/-- What a constructed client remembers of its configuration. -/
theorem smeClient_eq_ok (h : smeClient config = .ok s) :
    s.ServerIP = (config.server.map Prod.fst).getD "" ∧
      s.ServerPort = (config.server.map Prod.snd).getD (-1) ∧
      (s.m_Wrapper = true → parseInt config.APIKey = .ok s.g_APIKey) := by
  unfold smeClient initializeClient at h
  split_ifs at h with hnative
  · obtain ⟨apikey, hparse, rfl⟩ := map_eq_ok_iff.mp h
    exact ⟨rfl, rfl, fun _ => hparse⟩
  · obtain rfl := Except.ok.inj h
    exact ⟨rfl, rfl, by rintro ⟨⟩⟩

/-- A managed exception is sent to the configured server, with a constant key. -/
theorem reports_managed {handler : Handler} {time : DateTime}
    (hserver : config.server = some server)
    (h : Reports toShortDateString config (.managed handler time) connection) :
    (connection.ipAddress, connection.port) = server ∧ connection.apikey = 10 := by
  obtain ⟨s, hclient, hreported⟩ := h
  obtain ⟨hip, hport, -⟩ := smeClient_eq_ok hclient
  rw [hserver] at hip hport
  rw [reported] at hreported
  split_ifs at hreported with hsends
  cases hname : dateToFileName toShortDateString s.ProjectInfo time with
  | error e =>
    rw [hname] at hreported
    cases hreported
  | ok XMLFileName =>
    rw [hname] at hreported
    obtain rfl := Option.some.inj hreported
    exact ⟨Prod.ext hip hport, rfl⟩

/-- A native error is sent with the configured key, to a constant server. -/
theorem reports_native {dump_path minidump_id : String}
    (h : Reports toShortDateString config (.native dump_path minidump_id) connection) :
    (connection.ipAddress, connection.port) = ("127.0.0.1", 3000) ∧
      parseInt config.APIKey = .ok connection.apikey := by
  obtain ⟨s, hclient, hreported⟩ := h
  rw [reported] at hreported
  split_ifs at hreported with hwrapper
  obtain rfl := Option.some.inj hreported
  exact ⟨rfl, (smeClient_eq_ok hclient).2.2 hwrapper⟩

/-- **Which reports go where the configuration says.** For every configuration
with a server and a key that parses, and for every error that the client reports:
the report goes to the configured address and port under the configured key, and
is inserted under it, if and only if the error is managed and the key is 10, or
the error is native and the server is port 3000 of the same machine. -/
theorem sentAs_iff (toShortDateString : Date → String) (config : Configuration)
    (hserver : config.server = some server) (hkey : parseInt config.APIKey = .ok k)
    {occurrence : Occurrence} (h : Reports toShortDateString config occurrence connection) :
    SentAs server k connection ↔ occurrence.AgreesWith server k := by
  rw [sentAs_iff_eq]
  cases occurrence with
  | managed handler time =>
    obtain ⟨haddress, hconstant⟩ := reports_managed hserver h
    rw [haddress, hconstant, Occurrence.AgreesWith, eq_comm (a := k)]
    exact and_iff_right rfl
  | native dump_path minidump_id =>
    obtain ⟨haddress, hconfigured⟩ := reports_native h
    rw [hkey] at hconfigured
    rw [haddress, Except.ok.inj hconfigured, Occurrence.AgreesWith, eq_comm (a := server)]
    exact and_iff_left rfl

/-- The configuration of the test client. -/
def testClient : Configuration where
  proname := some "SMETestClient"
  proversion := none
  iscatchne := true
  iscatchhe := false
  APIKey := "10"
  server := some ("127.0.0.1", 3000)

/-- Noon of an ordinary day. -/
def sampleTime : DateTime :=
  ⟨sampleDate, ⟨12, by decide⟩, ⟨0, by decide⟩, ⟨0, by decide⟩, ⟨0, by decide⟩⟩

/-- The report of an unhandled exception of the test client. -/
def testConnection : Connection where
  ipAddress := "127.0.0.1"
  port := 3000
  FilePath := "C:\\Dumps\\CSSMETestClient-0.0-2015-05-01-12-00-00.xml"
  FileName := "SMETestClient-0.0-2015-05-01-12-00-00.xml"
  apikey := 10

theorem reports_testClient : Reports koreanShortDate testClient
    (.managed .unhandledException sampleTime) testConnection :=
  ⟨_, rfl, by decide +kernel⟩

/-- The test client agrees with both constants. -/
theorem sentAs_iff_testClient : SentAs ("127.0.0.1", 3000) 10 testConnection ↔
    (Occurrence.managed .unhandledException sampleTime).AgreesWith ("127.0.0.1", 3000) 10 :=
  sentAs_iff koreanShortDate testClient rfl (by decide) reports_testClient

/-- The same application under another key. -/
def otherKey : Configuration := { testClient with APIKey := "7" }

/-- With the key 7, an unhandled exception is still reported under the key 10. -/
theorem not_sentAs_otherKey : parseInt otherKey.APIKey = .ok 7 ∧
    Reports koreanShortDate otherKey (.managed .unhandledException sampleTime) testConnection ∧
    ¬ SentAs ("127.0.0.1", 3000) 7 testConnection := by
  refine ⟨by decide, ⟨_, rfl, by decide +kernel⟩, fun hsent => ?_⟩
  exact absurd hsent.apikey_eq (by decide)

end SMEWindow.Client
