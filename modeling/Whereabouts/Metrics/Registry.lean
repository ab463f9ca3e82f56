import Whereabouts.Metrics.Family

/-! # The registry

The families that sessions count in.  Several sessions may share one registry. -/

namespace Whereabouts

/-- The families that sessions count in. -/
structure Metrics where
  recordsDecoded : Counter := {}
  /-- By the code of the fault. -/
  decodeFailures : Counter := {}
  unmatchedCapabilities : Counter := {}
  unknownFields : Counter := {}
  /-- By what the update did to the roster. -/
  cacheMerges : Counter := {}
  /-- How many records the rosters hold. -/
  cacheEntries : Gauge := {}
  /-- By the kind and the fate of the request. -/
  requests : Counter := {}
  /-- By how the record or the failure met the requests. -/
  resolutions : Counter := {}

namespace Metrics

def render (m : Metrics) : String :=
  String.join
    [m.recordsDecoded.render "locate_records_decoded_total",
      m.decodeFailures.render "locate_decode_failures_total",
      m.unmatchedCapabilities.render "locate_unmatched_capabilities_total",
      m.unknownFields.render "locate_unknown_fields_total",
      m.cacheMerges.render "locate_cache_merges_total",
      m.cacheEntries.render "locate_cache_entries",
      m.requests.render "locate_requests_total",
      m.resolutions.render "locate_resolutions_total"]

end Metrics
end Whereabouts
