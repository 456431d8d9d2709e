import TrafficStore.Text.Lines

namespace TrafficStore

inductive Panel where
  | visitors
  | requests
  | requestsStatic
  | notFound
  | hosts
  | os
  | browsers
  | visitTimes
  | virtualHosts
  | referrers
  | referringSites
  | keyphrases
  | geoLocation
  | statusCodes
  deriving DecidableEq, Repr

namespace Panel

def all : List Panel :=
  [visitors, requests, requestsStatic, notFound, hosts, os, browsers, visitTimes, virtualHosts,
    referrers, referringSites, keyphrases, geoLocation, statusCodes]

theorem mem_all (p : Panel) : p ∈ all := by cases p <;> decide

def ordinal (p : Panel) : Nat := all.idxOf p

def name : Panel → String
  | visitors => "VISITORS"
  | requests => "REQUESTS"
  | requestsStatic => "REQUESTS_STATIC"
  | notFound => "NOT_FOUND"
  | hosts => "HOSTS"
  | os => "OS"
  | browsers => "BROWSERS"
  | visitTimes => "VISIT_TIMES"
  | virtualHosts => "VIRTUAL_HOSTS"
  | referrers => "REFERRERS"
  | referringSites => "REFERRING_SITES"
  | keyphrases => "KEYPHRASES"
  | geoLocation => "GEO_LOCATION"
  | statusCodes => "STATUS_CODES"

def ofText? (s : String) : Option Panel :=
  all.find? (fun p => Text.fold p.name.toList = Text.fold (Text.trim s.toList))

def unknownMessage (s : String) : String := s!"unknown module: {s}"

end Panel

end TrafficStore
