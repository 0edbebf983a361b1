import CountyFlow.Graph.State

/-!
# Recommendations for an issue

`IssueRecommendationService.recommend` names the category of an issue, the action to take, and the
route when the category has one that is verified.
-/

namespace CountyFlow.Graph

open CountyFlow.Dispatch

/-- `KNOWN_CATEGORIES`. -/
inductive IssueCategory where
  | vehicleBreakdown | roadBlocked | roadHazard | weather | cargo | capacity | other
  deriving DecidableEq, Repr

variable {category : IssueCategory}

namespace IssueCategory

def text : IssueCategory → String
  | .vehicleBreakdown => "VEHICLE_BREAKDOWN"
  | .roadBlocked => "ROAD_BLOCKED"
  | .roadHazard => "ROAD_HAZARD"
  | .weather => "WEATHER"
  | .cargo => "CARGO"
  | .capacity => "CAPACITY"
  | .other => "OTHER"

def all : List IssueCategory :=
  [.vehicleBreakdown, .roadBlocked, .roadHazard, .weather, .cargo, .capacity, .other]

/-- `category in NON_ROUTE_CATEGORIES`. -/
def nonRoute : IssueCategory → Bool
  | .vehicleBreakdown | .cargo | .capacity | .other => true
  | .roadBlocked | .roadHazard | .weather => false

theorem text_ne_empty (category : IssueCategory) : category.text ≠ "" := by
  cases category <;> decide

theorem text_eq_breakdown : category.text = "VEHICLE_BREAKDOWN" ↔ category = .vehicleBreakdown := by
  cases category <;> decide

theorem text_eq_blocked : category.text = "ROAD_BLOCKED" ↔ category = .roadBlocked := by
  cases category <;> decide

end IssueCategory

/-- `str.upper` of a character, as far as it decides whether a text becomes one of the categories:
every character whose capital is in ASCII. -/
def upperChar (c : Char) : List Char :=
  match c with
  | 'ı' => ['I']
  | 'ſ' => ['S']
  | 'ß' => ['S', 'S']
  | 'ﬀ' => ['F', 'F']
  | 'ﬁ' => ['F', 'I']
  | 'ﬂ' => ['F', 'L']
  | 'ﬃ' => ['F', 'F', 'I']
  | 'ﬄ' => ['F', 'F', 'L']
  | 'ﬅ' => ['S', 'T']
  | 'ﬆ' => ['S', 'T']
  | c => [c.toUpper]

def upper (value : String) : String := String.ofList (value.toList.flatMap upperChar)

/-- `_contains`. -/
def containsAny (value : String) (keywords : List String) : Bool :=
  keywords.any fun keyword => contains value keyword

/-- The aliases of `_normalize_category`. -/
def categoryAliases : List (String × IssueCategory) :=
  [("ROAD", .roadHazard), ("VEHICLE", .vehicleBreakdown), ("VEHICLE_FAULT", .vehicleBreakdown),
    ("GOODS", .cargo)]

/-- The words of a description that name a category, in the order in which they are looked for. -/
def categoryKeywords : List (IssueCategory × List String) :=
  [(.vehicleBreakdown, ["爆胎", "轮胎", "扎胎", "刹车", "制动", "发动机", "车辆故障"]),
    (.roadBlocked, ["封路", "道路封闭", "塌方"]),
    (.roadHazard, ["湿滑", "坑洼", "落石", "道路损坏"]),
    (.weather, ["暴雨", "大雪", "大雾", "强风", "天气"]),
    (.cargo, ["货物", "泄漏", "温控", "冷链", "倾斜"]),
    (.capacity, ["超载", "司机不可用", "车辆不可用", "运力"])]

def normalizeCategory (anomalyType description : String) : IssueCategory :=
  let normalized := upper (Worker.Db.strip anomalyType)
  let known := (categoryAliases.lookup normalized) <|>
    IssueCategory.all.find? fun category => category.text = normalized
  let named := categoryKeywords.find? fun rule => containsAny description rule.2
  (known <|> named.map Prod.fst).getD .other

/-- The rules of `_identify_subtype`. -/
def subtypeRules : IssueCategory → List (String × List String)
  | .vehicleBreakdown =>
    [("TIRE", ["爆胎", "轮胎", "扎胎"]), ("BRAKE", ["刹车", "制动"]), ("ENGINE", ["发动机", "引擎"])]
  | .roadBlocked =>
    [("LANDSLIDE", ["塌方", "滑坡"]), ("FLOODING", ["积水", "淹水"]), ("CONSTRUCTION", ["施工"]),
      ("CLOSURE", ["封路", "封闭"])]
  | .roadHazard =>
    [("SLIPPERY", ["湿滑", "结冰"]), ("POTHOLE", ["坑洼", "坑洞"]), ("ROCKFALL", ["落石"]),
      ("DAMAGE", ["道路损坏", "路面破损"])]
  | .weather =>
    [("HEAVY_RAIN", ["暴雨", "强降雨"]), ("SNOW", ["大雪", "暴雪"]), ("FOG", ["大雾", "能见度低"]),
      ("STRONG_WIND", ["强风", "大风"])]
  | .cargo =>
    [("TEMPERATURE", ["温控", "温度", "冷链"]), ("LEAK", ["泄漏", "渗漏"]), ("DAMAGE", ["破损"]),
      ("SHIFT", ["倾斜", "移位"])]
  | .capacity =>
    [("OVERLOAD", ["超载"]), ("DRIVER_UNAVAILABLE", ["司机不可用"]),
      ("VEHICLE_UNAVAILABLE", ["车辆不可用"])]
  | .other => []

def identifySubtype (category : IssueCategory) (description : String) : String :=
  (((subtypeRules category).find? fun rule => containsAny description rule.2).map Prod.fst).getD
    "GENERAL"

/-- `_action`. -/
def recommendedActionText (category : IssueCategory) (subtype : String) (route : Option String) :
    String :=
  match category with
  | .vehicleBreakdown =>
    if subtype = "TIRE" then
      "立即安全停车并设置警示标志，检查备胎条件；可安全操作时更换轮胎，否则联系道路救援，必要时换车转运。"
    else if subtype = "BRAKE" then
      "立即停止继续行驶并设置警示标志，联系道路救援检修制动系统，必要时换车转运。"
    else if subtype = "ENGINE" then
      "立即安全停车并关闭车辆，联系道路救援检查发动机，确认修复前不得继续配送。"
    else "立即安全停车并设置警示标志，联系道路救援检查车辆，必要时换车转运。"
  | .roadBlocked =>
    if (Dispatch.text route).isSome then
      "保持安全距离，按已核验的安全候选路线改道并服从调度指令。"
    else "停在安全位置并保持任务暂停，等待调度核实后配置替代路线。"
  | .roadHazard =>
    if (Dispatch.text route).isSome then
      "降低车速并按已核验的安全候选路线绕行，持续关注现场路况。"
    else "立即降速并在必要时停止通行，上报准确位置，等待调度核实安全路线。"
  | .weather =>
    if (Dispatch.text route).isSome then
      "暂缓当前路线通行，确认安全后按已核验候选路线改道。"
    else "暂缓通行并就近安全避险，等待环境风险下降或调度确认替代路线。"
  | .cargo => "立即安全停车检查货物，隔离泄漏或温控风险，重新固定货物，必要时安排转运。"
  | .capacity => "保持任务暂停并重新分配司机或车辆；存在超载时立即卸载分流，必要时拆单转运。"
  | .other => "保持任务暂停，记录现场位置和现象，并立即联系调度员补充资源与处置方案。"

/-- `_reason`. -/
def analysisReason (description : String) (vehicleStatus environmentRisk capacityStatus : Option String) :
    String :=
  let facts := ["员工上报“" ++ description ++ "”"] ++
    ((Dispatch.text vehicleStatus).map fun status => "车辆状态为 " ++ status).toList ++
    ((Dispatch.text environmentRisk).map fun risk => "环境风险为 " ++ risk).toList ++
    ((Dispatch.text capacityStatus).map fun status => "运力状态为 " ++ status).toList
  "；".intercalate facts ++ "，8-Agent 协同分析后需要执行安全处置。"

/-- A route that may be recommended: `RouteCandidate`, as far as the nodes read it. -/
structure RouteCandidate where
  routeId : String
  routeName : String
  distanceKm : ℚ
  estimatedMinutes : ℤ
  riskLevel : String
  available : Bool
  reason : Option String
  score : ℚ
  edgeIds : List String
  deriving DecidableEq, Repr

def verifiedRoute (recommendedRoute : Option String) (candidateRoutes : List RouteCandidate) :
    Option String :=
  (Dispatch.text recommendedRoute).filter fun route =>
    candidateRoutes.any fun candidate => candidate.routeId = route && candidate.available

structure IssueRecommendation where
  issueCategory : IssueCategory
  issueSubtype : String
  analysisReason : String
  recommendedAction : String
  recommendedRoute : Option String
  analysisMode : String
  deriving DecidableEq, Repr

def describedAnomaly (anomalyDescription : String) : String :=
  (Dispatch.text (some (Worker.Db.strip anomalyDescription))).getD "现场异常描述缺失"

def recommend (anomalyType anomalyDescription : String)
    (vehicleStatus environmentRisk capacityStatus : Option String)
    (candidateRoutes : List RouteCandidate) (recommendedRoute : Option String) :
    IssueRecommendation :=
  let description := describedAnomaly anomalyDescription
  let category := normalizeCategory anomalyType description
  let subtype := identifySubtype category description
  let route := if category.nonRoute then none else verifiedRoute recommendedRoute candidateRoutes
  { issueCategory := category
    issueSubtype := subtype
    analysisReason := analysisReason description vehicleStatus environmentRisk capacityStatus
    recommendedAction := recommendedActionText category subtype route
    recommendedRoute := route
    analysisMode := "EIGHT_AGENT_RULE_ASSISTED" }

end CountyFlow.Graph
