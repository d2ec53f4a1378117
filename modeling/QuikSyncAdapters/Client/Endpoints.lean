import QuikSyncAdapters.Client.Http
import QuikSyncAdapters.Client.RosRequest

/-! The endpoints of the REST client besides the three that command a robot. -/

namespace QuikSync.Client

open Py

def getCall (path : String) (params : Option (List (String × String))) : ApiCall :=
  ⟨"GET", path, none, params⟩

def getDiscovery (scope : Option String) : ApiCall :=
  getCall "/api/v1/connector/open-rmf/discovery" (nsParams scope)

def getBuildingMap (scope : Option String) : ApiCall :=
  getCall "/api/v1/connector/open-rmf/building_map" (nsParams scope)

def getFleetState (fleet : String) (scope : Option String) : ApiCall :=
  getCall s!"/api/v1/connector/open-rmf/fleets/{fleet}/state" (nsParams scope)

/-- The one endpoint that takes no namespace. -/
def getTaskState (taskId : String) : ApiCall :=
  getCall s!"/api/v1/connector/open-rmf/tasks/{taskId}/state" none

def getDoorState (door : String) (scope : Option String) : ApiCall :=
  getCall s!"/api/v1/connector/open-rmf/doors/{door}/state" (nsParams scope)

def getLiftState (lift : String) (scope : Option String) : ApiCall :=
  getCall s!"/api/v1/connector/open-rmf/lifts/{lift}/state" (nsParams scope)

def postDoorRequest (door requesterId requestedMode executionId : String)
    (scope : Option String) : ApiCall where
  method := "POST"
  path := s!"/api/v1/connector/open-rmf/doors/{door}/request"
  body := some [("requester_id", .str requesterId), ("requested_mode", .str requestedMode),
    ("execution_id", .str executionId)]
  params := nsParams scope

def postLiftRequest (lift sessionId requestType destinationFloor doorState executionId : String)
    (scope : Option String) : ApiCall where
  method := "POST"
  path := s!"/api/v1/connector/open-rmf/lifts/{lift}/request"
  body := some [("session_id", .str sessionId), ("request_type", .str requestType),
    ("destination_floor", .str destinationFloor), ("door_state", .str doorState),
    ("execution_id", .str executionId)]
  params := nsParams scope

def deleteLiftSession (lift : String) (scope : Option String) : ApiCall where
  method := "DELETE"
  path := s!"/api/v1/connector/open-rmf/lifts/{lift}/session"
  body := none
  params := nsParams scope

end QuikSync.Client
