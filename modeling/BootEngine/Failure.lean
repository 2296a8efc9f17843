import BootEngine.Text.Record

/-!
# Failures

The ways in which collecting, ordering, building, starting and running can fail, one family for each
stage. Every failure carries the texts that its message names, a message, the messages of the
failures that caused it, and a description of its fields.

Contents:
* `SettingsError`, `DiscoveryError`, `DependencyError`, `TransactionError`, `FeatureError`: the
  families.
* `StartupError`: the failures of starting and stopping, which wrap those of the stages.
-/

namespace BootEngine

/-! ## Settings -/

/-- A configuration that cannot be read into settings, or settings that are not valid. -/
inductive SettingsError where
  | unreadable (message : String)
  | invalid (message : String)
  deriving DecidableEq, Repr, Inhabited

namespace SettingsError

/-- The name of the failure. -/
def name : SettingsError → String
  | unreadable _ => "ParseError"
  | invalid _ => "ValidationError"

/-- The message of the failure. -/
def message : SettingsError → String
  | unreadable text => "配置解析失败: " ++ text
  | invalid text => "配置验证失败: " ++ text

/-- The failure with its fields. -/
def describe : SettingsError → String
  | unreadable text => Text.record "ParseError" [("message", Text.quote text)]
  | invalid text => Text.record "ValidationError" [("message", Text.quote text)]

end SettingsError

/-! ## Discovery -/

/-- A definition that cannot be registered, or a scan that failed. -/
structure DiscoveryError where
  typeName : String
  reason : String
  deriving DecidableEq, Repr, Inhabited

namespace DiscoveryError

/-- The name of the failure. -/
def name (_ : DiscoveryError) : String := "DiscoveryError"

/-- The message of the failure. -/
def message (e : DiscoveryError) : String :=
  "组件发现失败: " ++ e.typeName ++ ", 原因: " ++ e.reason

/-- The failure with its fields. -/
def describe (e : DiscoveryError) : String :=
  Text.record "DiscoveryError"
    [("type_name", Text.quote e.typeName), ("message", Text.quote e.reason)]

end DiscoveryError

/-! ## Dependencies -/

/-- A fault among the declared needs of components, a lookup that finds no single component, or a
    component that could not be built. Keys and needs stand as their texts. -/
inductive DependencyError where
  | cyclic (members : List String)
  | unresolved (requester missing : String)
  | notRegistered (key : String)
  | ambiguous (kind : String) (candidates : List String)
  | duplicate (key : String)
  | typeMismatch (key expected actual : String)
  | undeclared (requester dependency : String)
  | wrongDirection (requester dependency : String)
  | creationFailed (typeName reason : String)
  | unavailable (resource : String)
  deriving DecidableEq, Repr, Inhabited

namespace DependencyError

/-- The name of the failure. -/
def name : DependencyError → String
  | cyclic .. => "CyclicDependency"
  | unresolved .. => "UnresolvedDependency"
  | notRegistered .. => "ComponentNotRegistered"
  | ambiguous .. => "AmbiguousComponent"
  | duplicate .. => "DuplicateComponent"
  | typeMismatch .. => "TypeMismatch"
  | undeclared .. => "UndeclaredDependency"
  | wrongDirection .. => "InvalidDependencyDirection"
  | creationFailed .. => "ComponentCreationFailed"
  | unavailable .. => "InfrastructureUnavailable"

/-- The message of the failure. -/
def message : DependencyError → String
  | cyclic members => "检测到循环依赖: " ++ " -> ".intercalate members
  | unresolved requester missing =>
    "无法解析依赖: " ++ requester ++ " 需要 " ++ missing ++ ", 但没有组件或特性提供它"
  | notRegistered key => "组件未注册: " ++ key
  | ambiguous kind candidates =>
    "组件查找存在歧义: " ++ kind ++ " 有多个实现 [" ++ ", ".intercalate candidates ++ "]"
  | duplicate key => "组件重复注册: " ++ key
  | typeMismatch key expected actual =>
    "组件类型不匹配: " ++ key ++ ", 期望 " ++ expected ++ ", 实际 " ++ actual
  | undeclared requester dependency =>
    "组件 " ++ requester ++ " 请求了未声明的依赖 " ++ dependency
  | wrongDirection requester dependency =>
    "组件 " ++ requester ++ " 不能依赖 Web 层组件 " ++ dependency
  | creationFailed typeName reason => "组件创建失败: " ++ typeName ++ ", 原因: " ++ reason
  | unavailable resource => "基础设施组件不可用: " ++ resource

/-- The messages of the failures below this one. -/
def causes : DependencyError → List String
  | creationFailed _ reason => [reason]
  | _ => []

/-- The failure with its fields. -/
def describe (e : DependencyError) : String :=
  Text.record e.name <| match e with
    | cyclic members => [("members", Text.listing (members.map Text.quote))]
    | unresolved requester missing =>
      [("requester", Text.quote requester), ("missing", Text.quote missing)]
    | notRegistered key => [("key", Text.quote key)]
    | ambiguous kind candidates =>
      [("kind", Text.quote kind), ("candidates", Text.listing (candidates.map Text.quote))]
    | duplicate key => [("key", Text.quote key)]
    | typeMismatch key expected actual =>
      [("key", Text.quote key), ("expected", Text.quote expected), ("actual", Text.quote actual)]
    | undeclared requester dependency =>
      [("requester", Text.quote requester), ("dependency", Text.quote dependency)]
    | wrongDirection requester dependency =>
      [("requester", Text.quote requester), ("dependency", Text.quote dependency)]
    | creationFailed typeName reason =>
      [("type_name", Text.quote typeName), ("source", Text.quote reason)]
    | unavailable resource => [("name", Text.quote resource)]

end DependencyError

/-! ## Transactions -/

/-- The ways in which a transaction scope ends without the work's own failure. -/
inductive TransactionError where
  | noActiveTransaction
  | beginFailed (reason : String)
  | commitFailed (reason : String)
  | acquireTimeout (ms : Nat)
  | cancelled
  | rollbackOnly
  deriving DecidableEq, Repr, Inhabited

namespace TransactionError

/-- The name of the failure. -/
def name : TransactionError → String
  | noActiveTransaction => "NoActiveTransaction"
  | beginFailed _ => "Begin"
  | commitFailed _ => "Commit"
  | acquireTimeout _ => "AcquireTimeout"
  | cancelled => "Cancelled"
  | rollbackOnly => "RollbackOnly"

/-- The message of the failure. -/
def message : TransactionError → String
  | noActiveTransaction => "当前工作单元没有活动的事务"
  | beginFailed reason => "开启事务失败: " ++ reason
  | commitFailed reason => "提交事务失败: " ++ reason
  | acquireTimeout ms => "等待事务资源超时: " ++ toString ms ++ "ms"
  | cancelled => "工作单元已取消，事务已回滚"
  | rollbackOnly => "内层作用域失败，事务已被标记为仅回滚"

/-- The messages of the failures below this one. -/
def causes : TransactionError → List String
  | beginFailed reason => [reason]
  | commitFailed reason => [reason]
  | _ => []

/-- The failure with its fields, if it has any. -/
def describe (e : TransactionError) : String :=
  match e with
  | beginFailed reason => Text.record e.name [("source", Text.quote reason)]
  | commitFailed reason => Text.record e.name [("source", Text.quote reason)]
  | acquireTimeout ms => Text.record e.name [("timeout_ms", toString ms)]
  | _ => e.name

end TransactionError

/-! ## Features -/

/-- A feature that could not do its part when everything was ready. -/
structure FeatureError where
  message : String
  deriving DecidableEq, Repr, Inhabited

/-- The failure with its fields. -/
def FeatureError.describe (e : FeatureError) : String :=
  Text.record "FeatureError" [("message", Text.quote e.message)]

/-! ## Starting and stopping -/

/-- The failures of starting and stopping an application. The first three wrap a failure of a
    stage; a phase stands as its text. -/
inductive StartupError where
  | settings (source : SettingsError)
  | discovery (source : DiscoveryError)
  | dependency (source : DependencyError)
  | missingAfterRegistration (component key : String)
  | alreadyBootstrapped
  | phaseFailed (phase message : String)
  | featureFailed (feature message : String)
  | loggingFailed (message : String)
  | shutdownFailed (message : String)
  deriving DecidableEq, Repr, Inhabited

namespace StartupError

/-- The name of the failure. -/
def name : StartupError → String
  | settings _ => "ConfigError"
  | discovery _ => "ComponentError"
  | dependency _ => "DependencyError"
  | missingAfterRegistration .. => "PostRegistrationValidation"
  | alreadyBootstrapped => "AlreadyBootstrapped"
  | phaseFailed .. => "PhaseFailed"
  | featureFailed .. => "FeatureFailed"
  | loggingFailed _ => "LoggingInitFailed"
  | shutdownFailed _ => "ShutdownFailed"

/-- The message of the failure. -/
def message : StartupError → String
  | settings source => "配置错误: " ++ source.message
  | discovery source => "组件发现错误: " ++ source.message
  | dependency source => "依赖注入错误: " ++ source.message
  | missingAfterRegistration component key =>
    "注册后校验失败: 组件 " ++ component ++ " 声称已注册, 但注册表中找不到 " ++ key
  | alreadyBootstrapped => "引导流程已执行过, 不允许重复引导"
  | phaseFailed phase text => "引导阶段 " ++ phase ++ " 失败: " ++ text
  | featureFailed feature text => "特性 " ++ feature ++ " 失败: " ++ text
  | loggingFailed text => "日志系统初始化失败: " ++ text
  | shutdownFailed text => "基础设施关闭失败: " ++ text

/-- The messages of the failures below this one, the wrapped one first. -/
def causes : StartupError → List String
  | settings source => [source.message]
  | discovery source => [source.message]
  | dependency source => source.message :: source.causes
  | _ => []

/-- The failure with its fields, if it has any. -/
def describe (e : StartupError) : String :=
  match e with
  | settings source => Text.record e.name [("source", source.describe)]
  | discovery source => Text.record e.name [("source", source.describe)]
  | dependency source => Text.record e.name [("source", source.describe)]
  | missingAfterRegistration component key =>
    Text.record e.name [("component", Text.quote component), ("key", Text.quote key)]
  | alreadyBootstrapped => e.name
  | phaseFailed phase text =>
    Text.record e.name [("phase", Text.quote phase), ("message", Text.quote text)]
  | featureFailed feature text =>
    Text.record e.name [("feature", Text.quote feature), ("message", Text.quote text)]
  | loggingFailed text => Text.record e.name [("message", Text.quote text)]
  | shutdownFailed text => Text.record e.name [("message", Text.quote text)]

end StartupError

end BootEngine
