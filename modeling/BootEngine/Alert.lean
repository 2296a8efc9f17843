import BootEngine.Value

/-!
# Alerts

The warnings and errors that are reported while an application starts, runs and stops. None of them
changes what happens; each says what went wrong beside the result.

Contents:
* `Alert`: the alerts.
* `Alert.isError`, `Alert.message`, `Alert.details`: how an alert is reported.
-/

namespace BootEngine

/-- Something that went wrong beside a result. Failures stand as their messages. -/
inductive Alert where
  | effectFailed (index : Nat) (error : String)
  | nestedScopeFailed
  | scopeInterrupted
  | scopeLost
  | rollbackFailed (error : String)
  | kindNotScannable (root component kind : String)
  | disposeFailed (component error : String)
  | disposeTimedOut (component limit : String)
  | componentMissing (component key phase error : String)
  | phaseFailed (phase error : String)
  | releaseFailed (error : String)
  | repeatedBootstrap
  | shutdownIncomplete (error : String)
  deriving Repr

namespace Alert

/-- The alert is reported as an error, not as a warning. -/
def isError : Alert → Bool
  | componentMissing .. => true
  | phaseFailed .. => true
  | shutdownIncomplete _ => true
  | _ => false

/-- The message of the alert. -/
def message : Alert → String
  | effectFailed .. => "延迟副作用执行失败，已提交的事务不受影响"
  | nestedScopeFailed => "内层作用域失败，回滚整个事务"
  | scopeInterrupted => "事务作用域被中断，异步回滚物理事务"
  | scopeLost => "事务作用域被中断且没有可用的运行时，物理事务未能回滚"
  | rollbackFailed _ => "回滚物理事务失败"
  | kindNotScannable .. => "该能力类别不参与扫描，已跳过"
  | disposeFailed .. => "组件资源释放失败"
  | disposeTimedOut .. => "组件资源释放超时"
  | componentMissing .. => "组件声称已注册，但注册表中不存在"
  | phaseFailed .. => "引导阶段失败，中止引导"
  | releaseFailed _ => "引导失败后释放组件资源时出错"
  | repeatedBootstrap => "拒绝重复引导"
  | shutdownIncomplete _ => "应用关闭时部分组件释放失败"

/-- The named details of the alert. -/
def details : Alert → List (String × Value)
  | effectFailed index error => [("index", .int index), ("error", .text error)]
  | nestedScopeFailed => []
  | scopeInterrupted => []
  | scopeLost => []
  | rollbackFailed error => [("error", .text error)]
  | kindNotScannable root component kind =>
    [("namespace", .text root), ("component", .text component), ("kind", .text kind)]
  | disposeFailed component error => [("component", .text component), ("error", .text error)]
  | disposeTimedOut component limit => [("component", .text component), ("timeout", .text limit)]
  | componentMissing component key phase error =>
    [("component", .text component), ("key", .text key), ("phase", .text phase),
      ("error", .text error)]
  | phaseFailed phase error => [("phase", .text phase), ("error", .text error)]
  | releaseFailed error => [("error", .text error)]
  | repeatedBootstrap => []
  | shutdownIncomplete error => [("error", .text error)]

end Alert

end BootEngine
