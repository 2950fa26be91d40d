import Correlia.Lib.Model

/-!
# Domain.Notifications — delivery results (`app/domain/notifications.py`)
-/

namespace Correlia

open Lib

inductive NotificationCategory
  | dispatched | missingPlugin | missingIncident | pluginException | dispatchFailed
deriving DecidableEq, Repr

structure NotificationResult where
  success : Bool
  category : NotificationCategory
  message : BoundedString
deriving DecidableEq

/-- Latest terminal delivery result retained for one output plugin. -/
structure NotificationDeliveryRecord where
  pluginName : BoundedString
  result : NotificationResult
deriving DecidableEq

end Correlia
