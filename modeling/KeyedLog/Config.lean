import KeyedLog.Quantity
import KeyedLog.Event
import KeyedLog.Retry

/-! What can be configured, and what holds where nothing is said. -/

namespace KeyedLog

/-- The kinds of destination that events are routed to, in the order in which they receive them. -/
inductive Destination where
  | localApplication
  | localJob
  | cloudApplication
  | cloudJob
  deriving DecidableEq, Repr

namespace Destination

def all : List Destination :=
  [localApplication, localJob, cloudApplication, cloudJob]

def isRemote : Destination → Bool
  | localApplication | localJob => false
  | cloudApplication | cloudJob => true

def field : Destination → String
  | localApplication => "local_application"
  | localJob => "local_job"
  | cloudApplication => "cloud_application"
  | cloudJob => "cloud_job"

def routerName : Destination → String
  | localApplication => "local-application"
  | localJob => "local-job"
  | cloudApplication => "cloud-application"
  | cloudJob => "cloud-job"

end Destination

namespace Config

structure Local where
  fileName : String := "app.log"
  maxFileSize : ByteSize := ⟨104857600⟩
  maxArchiveWindows : UInt32 := 3
  deriving DecidableEq, Repr

structure Routes where
  localApplication : String := "workspace_app_root"
  localJob : String := "job_log_path"
  cloudApplication : String := "cloud_workspace_app_root"
  cloudJob : String := "cloud_job_log_path"
  deriving DecidableEq, Repr

def Routes.key (routes : Routes) : Destination → String
  | .localApplication => routes.localApplication
  | .localJob => routes.localJob
  | .cloudApplication => routes.cloudApplication
  | .cloudJob => routes.cloudJob

structure Router where
  idleTimeoutMinutes : UInt64 := 15
  /-- Seconds between two passes over idle sinks. It follows from the idle timeout when it is not given. -/
  reapIntervalSecs : Option UInt64 := none
  deriving DecidableEq, Repr

def Router.idleTimeoutSecs (router : Router) : UInt64 :=
  Natural.saturate64 (router.idleTimeoutMinutes.toNat * 60)

def Router.idleTimeout (router : Router) : Millis :=
  Millis.ofSeconds router.idleTimeoutSecs.toNat

structure Retry where
  maxAttempts : UInt32 := 3
  baseDelayMs : UInt64 := 200
  maxDelayMs : UInt64 := 5000
  deriving DecidableEq, Repr

def Retry.policy (retry : Retry) : RetryPolicy :=
  RetryPolicy.new retry.maxAttempts ⟨retry.baseDelayMs, retry.maxDelayMs⟩

structure Remote where
  enabled : Bool := false
  flushIntervalSecs : UInt64 := 60
  maxConcurrentFlushes : UInt64 := 4
  retry : Retry := {}
  deriving DecidableEq, Repr

def Remote.flushInterval (remote : Remote) : Millis :=
  Millis.ofSeconds remote.flushIntervalSecs.toNat

structure Lifecycle where
  shutdownGraceSecs : UInt64 := 30
  platformConsole : Bool := true
  encoding : Encoding := .line
  deriving DecidableEq, Repr

def Lifecycle.shutdownGrace (lifecycle : Lifecycle) : Millis :=
  Millis.ofSeconds lifecycle.shutdownGraceSecs.toNat

structure Storage where
  rootDir : String := "./log-storage"
  deriving DecidableEq, Repr

end Config

structure Config where
  rootLevel : Level := default
  localFiles : Config.Local := {}
  routes : Config.Routes := {}
  router : Config.Router := {}
  remote : Config.Remote := {}
  lifecycle : Config.Lifecycle := {}
  storage : Config.Storage := {}
  deriving DecidableEq, Repr

end KeyedLog
